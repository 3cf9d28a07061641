import AdminPanel.Lib.FirstSeen
import AdminPanel.Lib.PyLines
import AdminPanel.Lib.PyWords

/-!
# The `remote` lines of a profile

`openvpn_remote_hosts.py` puts the hosts of a node into OpenVPN profiles: a block of `remote`
lines, one for each host and each pair of port and protocol of the profile, takes the place of
the first `remote` line, and the others go.

* `applyOpenvpnRemoteHosts` — the new text of a profile;
* `remotePair?_remoteLine` — a written line is read back as its pair;
* `remote_lines_rewritten` — which lines a rewritten profile has, and that its later rewriting
  forgets the earlier one.
-/

namespace AdminPanel.Panel.RemoteHosts

open List Lib.PyText

/-! ## Profiles -/

/-- A host that `validate_host` lets through: some text, and no white space in it. -/
structure Host where
  text : List Char
  isWord : IsWord text

/-- The port and the protocol of a `remote` line. -/
abbrev RemotePair := List Char × Option (List Char)

section

-- `\d` of a regular expression: the decimal digits of all scripts
variable (isDecimal : Char → Bool)

/-- `_REMOTE_RE` on a line: its words, since the expression begins with `\s*` and ends with
`\s*$`. -/
def remotePair? (line : List Char) : Option RemotePair :=
  match splitWords line with
  | [word, _, port] =>
    if word = "remote".toList ∧ port.all isDecimal then some (port, none) else none
  | [word, _, port, proto] =>
    if word = "remote".toList ∧ port.all isDecimal then some (port, some proto) else none
  | _ => none

def protoText : Option (List Char) → List Char
  | some proto => ' ' :: proto
  | none => []

def remoteLine (host : Host) (pair : RemotePair) : List Char :=
  "remote ".toList ++ host.text ++ ' ' :: pair.1 ++ protoText pair.2 ++ ['\n']

/-- `pairs`: each once, in the order of their first lines. -/
def remotePairs (lines : List (List Char)) : List RemotePair :=
  (lines.filterMap (remotePair? isDecimal)).eraseDups

def newRemotes (hosts : List Host) (pairs : List RemotePair) : List (List Char) :=
  hosts.flatMap fun host => pairs.map (remoteLine host)

/-- Lines that are no `remote` lines. -/
def otherLines (lines : List (List Char)) : List (List Char) :=
  lines.filter fun line => (remotePair? isDecimal line).isNone

def applyOpenvpnRemoteHosts (content : List Char) (hosts : List Host) : List Char :=
  if hosts.isEmpty then content else
  let lines := keepLines content
  match lines.findIdx? fun line => (remotePair? isDecimal line).isSome with
  | none => content
  | some first =>
    (lines.take first ++ newRemotes hosts (remotePairs isDecimal lines) ++
      otherLines isDecimal (lines.drop first)).flatten

end

/-! ## A written line -/

section

variable {isDecimal : Char → Bool} {line : List Char} {pair : RemotePair}

/-- A pair as a line has it. -/
structure IsPair (isDecimal : Char → Bool) (pair : RemotePair) : Prop where
  port : IsWord pair.1
  decimal : pair.1.all isDecimal = true
  proto : ∀ proto, pair.2 = some proto → IsWord proto

theorem isPair_of_line (h : remotePair? isDecimal line = some pair) : IsPair isDecimal pair := by
  have hWords : ∀ word ∈ splitWords line, IsWord word := fun word hMem => isWord_of_mem hMem
  unfold remotePair? at h
  split at h
  · next word host port hLine =>
    obtain ⟨hIf, hSome⟩ := Option.ite_none_right_eq_some.mp h
    cases hSome
    exact ⟨hWords port (hLine ▸ by simp), hIf.2, nofun⟩
  · next word host port proto hLine =>
    obtain ⟨hIf, hSome⟩ := Option.ite_none_right_eq_some.mp h
    cases hSome
    refine ⟨hWords port (hLine ▸ by simp), hIf.2, fun other hOther => ?_⟩
    exact Option.some.inj hOther ▸ hWords proto (hLine ▸ by simp)
  · cases h

theorem isWord_remote : IsWord "remote".toList := ⟨by decide, by decide⟩

/-- **A written line is read back.** -/
theorem remotePair?_remoteLine (host : Host) (h : IsPair isDecimal pair) :
    remotePair? isDecimal (remoteLine host pair) = some pair := by
  obtain ⟨port, proto⟩ := pair
  have hRemote : "remote ".toList = "remote".toList ++ [' '] := by decide
  have hSpace : isSpace ' ' = true := by decide
  have hEnd : isSpace '\n' = true := by decide
  have hLine : splitWords (remoteLine host (port, proto)) =
      "remote".toList :: host.text :: port :: proto.toList := by
    unfold remoteLine
    rw [splitWords_concat hEnd, hRemote]
    generalize hWord : "remote".toList = word
    have hWord : IsWord word := hWord ▸ isWord_remote
    simp only [append_assoc, cons_append, nil_append]
    rw [hWord.splitWords_append hSpace, host.isWord.splitWords_append hSpace]
    cases proto with
    | none => rw [protoText, append_nil, h.port.splitWords]; rfl
    | some proto =>
      rw [protoText, h.port.splitWords_append hSpace, (h.proto proto rfl).splitWords]
      rfl
  rw [remotePair?, hLine]
  cases proto <;> simp [h.decimal]

theorem not_break_of_not_space {s : List Char} (h : ∀ c ∈ s, isSpace c = false) :
    ∀ c ∈ s, isLineBreak c = false := fun c hC =>
  Bool.eq_false_iff.mpr fun hBreak => by
    have hSpace := isSpace_of_isLineBreak hBreak
    rw [h c hC] at hSpace
    cases hSpace

theorem isLine_remoteLine (host : Host) (h : IsPair isDecimal pair) :
    IsLine (remoteLine host pair) := by
  refine ⟨_, '\n', rfl, ?_, by decide, by decide⟩
  have hHost := not_break_of_not_space host.isWord.not_space
  have hPort := not_break_of_not_space h.port.not_space
  simp only [forall_mem_append, forall_mem_cons]
  refine ⟨⟨⟨by decide, hHost⟩, by decide, hPort⟩, ?_⟩
  cases hProto : pair.2 with
  | none => exact fun c hC => absurd hC not_mem_nil
  | some proto =>
    exact forall_mem_cons.mpr
      ⟨by decide, not_break_of_not_space (h.proto proto hProto).not_space⟩

/-! ## The lines of a profile -/

variable {content : List Char} {hosts : List Host} {lines before after : List (List Char)}
  {first : List Char}

/-- A line that is no `remote` line stays so when its end `\r` becomes `\r\n`. -/
theorem remotePair?_merge (body : List Char) (h : remotePair? isDecimal (body ++ ['\r']) = none) :
    remotePair? isDecimal (body ++ ['\r', '\n']) = none := by
  have hWords : splitWords (body ++ ['\r', '\n']) = splitWords (body ++ ['\r']) := by
    rw [splitWords_append_space (by decide), splitWords_append_space (by decide)]
    rfl
  rw [remotePair?, hWords]
  exact h

theorem mem_remotePairs (h : pair ∈ remotePairs isDecimal lines) : IsPair isDecimal pair := by
  rw [remotePairs, mem_eraseDups, mem_filterMap] at h
  obtain ⟨line, -, hLine⟩ := h
  exact isPair_of_line hLine

theorem otherLines_eq_self (h : ∀ line ∈ lines, remotePair? isDecimal line = none) :
    otherLines isDecimal lines = lines := by
  rw [otherLines, filter_eq_self]
  exact fun line hMem => Option.isNone_iff_eq_none.mpr (h line hMem)

theorem none_of_mem_otherLines (h : line ∈ otherLines isDecimal lines) :
    remotePair? isDecimal line = none :=
  Option.isNone_iff_eq_none.mp (mem_filter.mp h).2

/-- The first `remote` line of some lines. -/
structure FirstRemote (isDecimal : Char → Bool) (lines before : List (List Char))
    (first : List Char) (after : List (List Char)) : Prop where
  lines_eq : lines = before ++ first :: after
  before : ∀ line ∈ before, remotePair? isDecimal line = none
  first : (remotePair? isDecimal first).isSome = true

theorem first_remote (isDecimal : Char → Bool) (lines : List (List Char)) :
    (∀ line ∈ lines, remotePair? isDecimal line = none) ∨
      ∃ before first after, FirstRemote isDecimal lines before first after := by
  induction lines with
  | nil => exact .inl fun line hMem => absurd hMem not_mem_nil
  | cons line lines ih =>
    cases hLine : remotePair? isDecimal line with
    | some pair =>
      refine .inr ⟨[], line, lines, rfl, fun _ hMem => absurd hMem not_mem_nil, ?_⟩
      rw [hLine]
      rfl
    | none =>
      rcases ih with hAll | ⟨before, first, after, rfl, hBefore, hFirst⟩
      · exact .inl (forall_mem_cons.mpr ⟨hLine, hAll⟩)
      · exact .inr ⟨line :: before, first, after, rfl,
          forall_mem_cons.mpr ⟨hLine, hBefore⟩, hFirst⟩

theorem apply_of_none (h : ∀ line ∈ keepLines content, remotePair? isDecimal line = none)
    (hosts : List Host) : applyOpenvpnRemoteHosts isDecimal content hosts = content := by
  have hNone : (keepLines content).findIdx? (fun line => (remotePair? isDecimal line).isSome) =
      none := by
    rw [List.findIdx?_eq_none_iff]
    exact fun line hMem => by rw [h line hMem]; rfl
  rw [applyOpenvpnRemoteHosts]
  simp only [hNone]
  exact ite_self _

/-- **A profile with `remote` lines.** -/
theorem apply_of_first (hHosts : hosts ≠ [])
    (h : FirstRemote isDecimal (keepLines content) before first after) :
    applyOpenvpnRemoteHosts isDecimal content hosts =
      (before ++ newRemotes hosts (remotePairs isDecimal (keepLines content)) ++
        otherLines isDecimal after).flatten := by
  have hIdx : (keepLines content).findIdx? (fun line => (remotePair? isDecimal line).isSome) =
      some before.length := by
    rw [h.lines_eq, List.findIdx?_append, List.findIdx?_eq_none_iff.mpr fun line hMem => by
      rw [h.before line hMem]; rfl]
    simp [List.findIdx?_cons, h.first]
  have hOthers : otherLines isDecimal (first :: after) = otherLines isDecimal after :=
    filter_cons_of_neg (by rw [Option.isNone_eq_false_iff.mpr h.first]; exact Bool.false_ne_true)
  rw [applyOpenvpnRemoteHosts, if_neg (by rwa [List.isEmpty_iff])]
  simp only [hIdx]
  rw [h.lines_eq, take_left, drop_left, hOthers]

/-! ## A rewritten profile -/

variable {pairs : List RemotePair}

theorem filterMap_newRemotes (h : ∀ pair ∈ pairs, IsPair isDecimal pair) (hosts : List Host) :
    (newRemotes hosts pairs).filterMap (remotePair? isDecimal) = hosts.flatMap fun _ => pairs := by
  induction hosts with
  | nil => rfl
  | cons host hosts ih =>
    have hHost : (pairs.map (remoteLine host)).filterMap (remotePair? isDecimal) = pairs := by
      rw [filterMap_map]
      refine (filterMap_congr fun pair hPair => ?_).trans filterMap_some
      exact remotePair?_remoteLine host (h pair hPair)
    rw [newRemotes, flatMap_cons, filterMap_append, hHost, flatMap_cons]
    exact congrArg _ ih

theorem isLine_newRemotes (h : ∀ pair ∈ pairs, IsPair isDecimal pair) :
    ∀ line ∈ newRemotes hosts pairs, IsLine line := by
  intro line hMem
  obtain ⟨host, -, hLine⟩ := mem_flatMap.mp hMem
  obtain ⟨pair, hPair, rfl⟩ := mem_map.mp hLine
  exact isLine_remoteLine host (h pair hPair)

/-- What is put in begins with `remote`. -/
theorem head?_newRemotes (hHosts : hosts ≠ []) (hPairs : pairs ≠ []) (rest : List Char) :
    ((newRemotes hosts pairs).flatten ++ rest).head? = some 'r' := by
  obtain ⟨host, hosts, rfl⟩ := exists_cons_of_ne_nil hHosts
  obtain ⟨pair, pairs, rfl⟩ := exists_cons_of_ne_nil hPairs
  rfl

theorem FirstRemote.pairs_ne_nil (h : FirstRemote isDecimal lines before first after) :
    remotePairs isDecimal lines ≠ [] := by
  obtain ⟨pair, hPair⟩ := Option.isSome_iff_exists.mp h.first
  have hMem : pair ∈ remotePairs isDecimal lines := by
    rw [remotePairs, mem_eraseDups, mem_filterMap]
    exact ⟨first, h.lines_eq ▸ by simp, hPair⟩
  exact ne_nil_of_mem hMem

/-- The lines of a rewritten profile: those behind the block can have come together where one
ends with `\r`. -/
theorem keepLines_apply (hHosts : hosts ≠ [])
    (h : FirstRemote isDecimal (keepLines content) before first after) :
    keepLines (applyOpenvpnRemoteHosts isDecimal content hosts) =
      before ++ (newRemotes hosts (remotePairs isDecimal (keepLines content)) ++
        keepLines (otherLines isDecimal after).flatten) := by
  rw [apply_of_first hHosts h, append_assoc, flatten_append, flatten_append]
  have hHead := head?_newRemotes hHosts h.pairs_ne_nil (otherLines isDecimal after).flatten
  rw [keepLines_before h.lines_eq (by rw [hHead]; decide), keepLines_flatten_append
    (isLine_newRemotes fun pair hPair => mem_remotePairs hPair)]

theorem cut_otherLines (h : FirstRemote isDecimal (keepLines content) before first after) :
    Lib.PyText.Cut (otherLines isDecimal after) := by
  have hCut := cut_keepLines content
  rw [h.lines_eq] at hCut
  have hAfter : Lib.PyText.Cut after := ⟨(pairwise_append.mp hCut.ended).2.1.of_cons,
    fun line hMem => hCut.line line (by simp [hMem])⟩
  exact hAfter.filter _

/-- Behind the block no `remote` line is left. -/
theorem none_of_mem_rest (h : FirstRemote isDecimal (keepLines content) before first after) :
    ∀ line ∈ keepLines (otherLines isDecimal after).flatten,
      remotePair? isDecimal line = none :=
  (cut_otherLines h).forall_keepLines (fun _ hMem => none_of_mem_otherLines hMem)
    remotePair?_merge

/-- The remote pairs are read from a rewritten file as before. -/
theorem remotePairs_apply (hHosts : hosts ≠ [])
    (h : FirstRemote isDecimal (keepLines content) before first after) :
    remotePairs isDecimal (keepLines (applyOpenvpnRemoteHosts isDecimal content hosts)) =
      remotePairs isDecimal (keepLines content) := by
  have hNone : ∀ lines : List (List Char), (∀ line ∈ lines, remotePair? isDecimal line = none) →
      lines.filterMap (remotePair? isDecimal) = [] := fun _ hAll =>
    filterMap_eq_nil_iff.mpr hAll
  have hNodup : (remotePairs isDecimal (keepLines content)).Nodup := Lib.nodup_eraseDups _
  rw [keepLines_apply hHosts h]
  generalize hPairs : remotePairs isDecimal (keepLines content) = pairs at hNodup ⊢
  rw [remotePairs, filterMap_append, filterMap_append, hNone _ h.before,
    hNone _ (none_of_mem_rest h), nil_append, append_nil,
    filterMap_newRemotes fun pair hPair => mem_remotePairs (hPairs ▸ hPair)]
  obtain ⟨host, hosts, rfl⟩ := exists_cons_of_ne_nil hHosts
  rw [flatMap_cons]
  refine Lib.eraseDups_append_of_subset hNodup fun pair hPair => ?_
  obtain ⟨-, -, hPair⟩ := mem_flatMap.mp hPair
  exact hPair

/-- **A later rewriting forgets the earlier one.** -/
theorem apply_apply (hHosts : hosts ≠ []) {more : List Host} (hMore : more ≠ [])
    (content : List Char) :
    applyOpenvpnRemoteHosts isDecimal (applyOpenvpnRemoteHosts isDecimal content hosts) more =
      applyOpenvpnRemoteHosts isDecimal content more := by
  rcases first_remote isDecimal (keepLines content) with hNone | ⟨before, first, after, h⟩
  · rw [apply_of_none hNone]
  have hPairs := remotePairs_apply hHosts h
  generalize hOnce : applyOpenvpnRemoteHosts isDecimal content hosts = once at hPairs ⊢
  have hLines := hOnce ▸ keepLines_apply hHosts h
  obtain ⟨line, others, hBlock⟩ : ∃ line others,
      newRemotes hosts (remotePairs isDecimal (keepLines content)) = line :: others := by
    refine exists_cons_of_ne_nil fun hNil => ?_
    have hHead := head?_newRemotes hHosts h.pairs_ne_nil []
    rw [hNil] at hHead
    cases hHead
  have hSome : ∀ l ∈ line :: others, (remotePair? isDecimal l).isSome = true := by
    intro l hMem
    rw [← hBlock] at hMem
    obtain ⟨host, -, hLine⟩ := mem_flatMap.mp hMem
    obtain ⟨pair, hPair, rfl⟩ := mem_map.mp hLine
    rw [remotePair?_remoteLine host (mem_remotePairs hPair)]
    rfl
  rw [hBlock, cons_append] at hLines
  have hAgain : FirstRemote isDecimal (keepLines once) before line
      (others ++ keepLines (otherLines isDecimal after).flatten) :=
    ⟨hLines, h.before, hSome line mem_cons_self⟩
  have hOthers : otherLines isDecimal (others ++ keepLines (otherLines isDecimal after).flatten) =
      keepLines (otherLines isDecimal after).flatten := by
    have hGone : otherLines isDecimal others = [] := by
      rw [otherLines, filter_eq_nil_iff]
      intro l hMem
      rw [Option.isNone_eq_false_iff.mpr (hSome l (mem_cons_of_mem _ hMem))]
      exact Bool.false_ne_true
    have hKept := otherLines_eq_self (none_of_mem_rest h)
    rw [otherLines] at hGone hKept ⊢
    rw [filter_append, hGone, nil_append, hKept]
  rw [apply_of_first hMore hAgain, apply_of_first hMore h, hPairs, hOthers, flatten_append,
    flatten_keepLines, ← flatten_append]

end

/-- **A rewritten profile.** The `remote` lines go, and in the place of the first come those of
the hosts, host by host, with each pair that the profile had; all other text is as it was, line
by line, and rewriting again with any hosts gives what they give on the first text. Where no line
ends with a lone `\r`, the lines of the new text are the written and the kept ones. -/
theorem remote_lines_rewritten (isDecimal : Char → Bool) (content : List Char) (hosts : List Host)
    (hHosts : hosts ≠ []) :
    let pairs := remotePairs isDecimal (keepLines content)
    let new := applyOpenvpnRemoteHosts isDecimal content hosts
    ((∀ line ∈ keepLines content, remotePair? isDecimal line = none) → new = content) ∧
      (∀ before first after, FirstRemote isDecimal (keepLines content) before first after →
        new = (before ++ newRemotes hosts pairs ++ otherLines isDecimal after).flatten ∧
        ((∀ line ∈ after, line.getLast? ≠ some '\r') →
          keepLines new = before ++ newRemotes hosts pairs ++ otherLines isDecimal after)) ∧
      (pairs.Nodup ∧ ∀ pair, pair ∈ pairs ↔
        ∃ line ∈ keepLines content, remotePair? isDecimal line = some pair) ∧
      applyOpenvpnRemoteHosts isDecimal new hosts = new ∧
      ∀ more, more ≠ [] → applyOpenvpnRemoteHosts isDecimal new more =
        applyOpenvpnRemoteHosts isDecimal content more := by
  refine ⟨fun hNone => apply_of_none hNone hosts, fun before first after h =>
    ⟨apply_of_first hHosts h, fun hReturn => ?_⟩, ⟨Lib.nodup_eraseDups _, fun pair => ?_⟩,
    apply_apply hHosts hHosts content, fun more hMore => apply_apply hHosts hMore content⟩
  · have hKept := (cut_otherLines h).keepLines_flatten fun line hMem =>
      hReturn line (mem_of_mem_filter hMem)
    rw [keepLines_apply hHosts h, hKept, append_assoc]
  · rw [remotePairs, mem_eraseDups, mem_filterMap]

/-- A profile with two pairs and two hosts. -/
theorem remote_lines_rewritten_two :
    let hosts : List Host := [⟨"h1".toList, ⟨by decide, by decide⟩⟩,
      ⟨"h2".toList, ⟨by decide, by decide⟩⟩]
    let new := applyOpenvpnRemoteHosts Char.isDigit
      "client\r\nremote a 1 udp\nverb 3\n remote b 2".toList hosts
    new = ("client\r\nremote h1 1 udp\nremote h1 2\nremote h2 1 udp\nremote h2 2\n" ++
        "verb 3\n").toList ∧
      applyOpenvpnRemoteHosts Char.isDigit new hosts = new :=
  ⟨by decide, (remote_lines_rewritten Char.isDigit _ _ (cons_ne_nil _ _)).2.2.2.1⟩

end AdminPanel.Panel.RemoteHosts

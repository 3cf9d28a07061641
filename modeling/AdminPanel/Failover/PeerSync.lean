import AdminPanel.Failover.Rules
import AdminPanel.Lib.Sections

/-!
# Addresses of a pool's peers

`failover_pool.py` puts a client's peer on every other member of a pool and gives it an address of
the member's own subnet: the first `a.b.c.2`, .., `a.b.c.254` that is not a substring of the
member's config.

* `networkOf`, `allocateIp` — the subnet and the address;
* `syncMember`, `syncClientPeerToPool` — a client's peer on one member and on all of them;
* `sync_member` — every member takes a turn of its own;
* `networkOf_appendPeerBlock`, `lines_append` — a config with one more peer.

The read and the write of a member's config succeed.
-/

namespace AdminPanel.Failover.PeerSync

open Function List

open Lib.PyText (isSpace strip)

/-! ## The subnet -/

/-- `[0-9]+` -/
def digits (text : Text) : Option (Text × Text) :=
  if text.takeWhile Char.isDigit = [] then none
  else some (text.takeWhile Char.isDigit, text.dropWhile Char.isDigit)

/-- `([0-9]+\.[0-9]+\.[0-9]+)\.[0-9]+`, with its group. -/
def numbers (text : Text) : Option Text := do
  let (a, text) ← digits text
  let text ← literal id ['.'] text
  let (b, text) ← digits text
  let text ← literal id ['.'] text
  let (c, text) ← digits text
  let text ← literal id ['.'] text
  let _ ← digits text
  return a ++ '.' :: b ++ '.' :: c

/-- `\s*=\s*` and the numbers -/
def afterAddress (text : Text) : Option Text :=
  (literal id ['='] (text.dropWhile isSpace)).bind fun text => numbers (text.dropWhile isSpace)

def addressRe (text : Text) : Option Text := (literal id "Address".toList text).bind afterAddress

/-- The first match of `addressRe` after a newline. -/
def networkFrom : Text → Option Text
  | [] => none
  | c :: text => if c = '\n' then (addressRe text).or (networkFrom text) else networkFrom text

/-- The match of `^Address\s*=..` in `_allocate_ip`, with its group. -/
def networkOf (conf : Text) : Option Text := networkFrom ('\n' :: conf)

/-! ## The address -/

/-- `FailoverPoolError` -/
inductive PoolError
  /-- "В серверном конфиге не найден Address — интерфейс не инициализирован на этом узле" -/
  | noAddress
  /-- "Подсеть AmneziaWG 2 на этом узле исчерпана (253 клиента)" -/
  | exhausted
  deriving DecidableEq, Repr

/-- `range(2, 255)` -/
def hosts : List ℕ := List.range' 2 253

def address (base : Text) (host : ℕ) : Text := base ++ '.' :: Nat.toDigits 10 host

def allocateIp (conf : Text) : Except PoolError Text :=
  match networkOf conf with
  | none => .error .noAddress
  | some base =>
    match hosts.find? fun host => ¬ address base host <:+: conf with
    | some host => .ok (address base host)
    | none => .error .exhausted

/-! ## The peer -/

/-- A client's peer, as the primary node has it: a name of letters, digits, `_` and `-`, and keys
in base64. An empty private key stands for none. -/
structure PeerSpec where
  clientName : Text
  publicKey : Text
  presharedKey : Text
  privateKey : Text
  plain : ∀ text ∈ [clientName, publicKey, presharedKey, privateKey], '.' ∉ text ∧ '\n' ∉ text

def clientLine (clientName : Text) : Text := "# Client = ".toList ++ clientName

def allowedLine (ip : Text) : Text := "AllowedIPs = ".toList ++ ip ++ "/32".toList

/-- The lines of `_append_peer_block`. -/
def blockLines (spec : PeerSpec) (ip : Text) : List Text :=
  clientLine spec.clientName ::
    ((if spec.privateKey = [] then [] else ["# PrivateKey = ".toList ++ spec.privateKey]) ++
      ["[Peer]".toList, "PublicKey = ".toList ++ spec.publicKey,
        "PresharedKey = ".toList ++ spec.presharedKey, allowedLine ip])

def appendPeerBlock (conf : Text) (spec : PeerSpec) (ip : Text) : Text :=
  let sep := if conf = [] ∨ conf.getLast? = some '\n' then [] else ['\n']
  conf ++ sep ++ '\n' :: ['\n'].intercalate (blockLines spec ip) ++ ['\n']

def peerExists (conf clientName : Text) : Prop := clientLine clientName ∈ conf.splitOn '\n'

instance (conf clientName : Text) : Decidable (peerExists conf clientName) :=
  inferInstanceAs (Decidable (_ ∈ _))

/-- What a member makes of a peer. -/
inductive Outcome
  /-- the client has a peer there -/
  | kept
  | appended (ip : Text)
  | failed (error : PoolError)
  deriving DecidableEq

/-- A member's turn in `sync_client_peer_to_pool`. -/
def syncMember (spec : PeerSpec) (conf : Text) : Outcome × Text :=
  if peerExists conf spec.clientName then (.kept, conf)
  else
    match allocateIp conf with
    | .ok ip => (.appended ip, appendPeerBlock conf spec ip)
    | .error error => (.failed error, conf)

/-- `sync_client_peer_to_pool`, with the configs of the nodes and what each member made of it. -/
def syncClientPeerToPool (spec : PeerSpec) :
    List ℕ → (ℕ → Text) → List (ℕ × Outcome) × (ℕ → Text)
  | [], confs => ([], confs)
  | node :: members, confs =>
    let (outcome, conf) := syncMember spec (confs node)
    let (outcomes, confs) :=
      syncClientPeerToPool spec members (update confs node conf)
    ((node, outcome) :: outcomes, confs)

/-- The clients one after the other on one member. -/
def syncAll : List PeerSpec → Text → List Outcome × Text
  | [], conf => ([], conf)
  | spec :: specs, conf =>
    let (outcome, conf) := syncMember spec conf
    let (outcomes, conf) := syncAll specs conf
    (outcome :: outcomes, conf)

/-- Every member takes its own turn: the others do not matter to it. -/
theorem sync_member (spec : PeerSpec) {members : List ℕ} (hNodup : members.Nodup)
    (confs : ℕ → Text) :
    (syncClientPeerToPool spec members confs).1 =
        members.map (fun node => (node, (syncMember spec (confs node)).1)) ∧
      ∀ node, (syncClientPeerToPool spec members confs).2 node =
        if node ∈ members then (syncMember spec (confs node)).2 else confs node := by
  induction members generalizing confs with
  | nil => exact ⟨rfl, fun _ => rfl⟩
  | cons first members ih =>
    obtain ⟨hFirst, hRest⟩ := nodup_cons.mp hNodup
    obtain ⟨hOutcomes, hConfs⟩ :=
      ih hRest (update confs first (syncMember spec (confs first)).2)
    constructor
    · refine (congrArg ((first, (syncMember spec (confs first)).1) :: ·) hOutcomes).trans ?_
      rw [map_cons]
      refine congrArg _ (map_congr_left fun node hNode => ?_)
      rw [update_of_ne (ne_of_mem_of_not_mem hNode hFirst)]
    · intro node
      refine (hConfs node).trans ?_
      by_cases hNode : node = first
      · subst hNode
        rw [if_neg hFirst, update_self, if_pos mem_cons_self]
      · simp only [update_of_ne hNode, mem_cons, hNode, false_or]

variable {conf base text rest : Text} {spec : PeerSpec} {specs : List PeerSpec}

/-! ## The subnet of a longer config -/

/-- Three numbers with dots between them. -/
def IsBase (base : Text) : Prop :=
  ∃ a b c : Text, (∀ part ∈ [a, b, c], part ≠ [] ∧ ∀ d ∈ part, d.isDigit = true) ∧
    base = a ++ '.' :: b ++ '.' :: c

variable {word : Text}

theorem literal_eq_some : literal id word text = some rest ↔ text = word ++ rest := by
  rw [literal, map_id, map_id]
  constructor
  · intro h
    split_ifs at h with hTake
    cases h
    have hAll := take_append_drop word.length text
    rw [← hTake] at hAll
    exact hAll.symm
  · rintro rfl
    rw [take_left, drop_left, if_pos rfl]

theorem literal_append (h : literal id word text = some rest) (more : Text) :
    literal id word (text ++ more) = some (rest ++ more) := by
  rw [literal_eq_some] at h ⊢
  rw [h, append_assoc]

theorem digits_eq_some {number : Text} (h : digits text = some (number, rest)) :
    number ≠ [] ∧ ∀ c ∈ number, c.isDigit = true := by
  unfold digits at h
  split_ifs at h with hNil
  obtain ⟨rfl, -⟩ := Prod.mk.inj (Option.some.inj h)
  exact ⟨hNil, fun c hc => mem_takeWhile_imp hc⟩

theorem numbers_isBase (h : numbers text = some base) : IsBase base := by
  simp only [numbers, Option.bind_eq_bind, Option.bind_eq_some_iff, Option.pure_def,
    Option.some.injEq, Prod.exists] at h
  obtain ⟨a, _, hA, _, -, b, _, hB, _, -, c, _, hC, _, -, _, _, -, rfl⟩ := h
  refine ⟨a, b, c, fun part hPart => ?_, rfl⟩
  simp only [mem_cons, not_mem_nil, or_false] at hPart
  obtain rfl | rfl | rfl := hPart
  · exact digits_eq_some hA
  · exact digits_eq_some hB
  · exact digits_eq_some hC

theorem networkFrom_isBase (h : networkFrom text = some base) : IsBase base := by
  induction text with
  | nil => cases h
  | cons c text ih =>
    unfold networkFrom at h
    split_ifs at h with hNewline
    · cases hHere : addressRe text with
      | none =>
        rw [hHere, Option.none_or] at h
        exact ih h
      | some found =>
        rw [hHere] at h
        cases h
        obtain ⟨_, -, hRest⟩ := Option.bind_eq_some_iff.mp hHere
        obtain ⟨_, -, hNumbers⟩ := Option.bind_eq_some_iff.mp hRest
        exact numbers_isBase hNumbers
    · exact ih h

theorem isBase_of_networkOf (h : networkOf conf = some base) : IsBase base := networkFrom_isBase h

/-- A character at which every part of a number ends. -/
structure Stops (c : Char) : Prop where
  digit : c.isDigit = false
  dot : c ≠ '.'
  equals : c ≠ '='

variable {c : Char}

theorem digits_stop (hC : Stops c) (more : Text) : digits (text ++ c :: more) =
      (digits text).map fun found => (found.1, found.2 ++ c :: more) := by
  have hSpan : ∀ text : Text, (text ++ c :: more).takeWhile Char.isDigit =
        text.takeWhile Char.isDigit ∧
      (text ++ c :: more).dropWhile Char.isDigit = text.dropWhile Char.isDigit ++ c :: more := by
    intro text
    induction text with
    | nil => simp [hC.digit]
    | cons d text ih =>
      cases hD : d.isDigit with
      | false => simp [hD]
      | true => simp [hD, ih]
  unfold digits
  rw [(hSpan text).1, (hSpan text).2]
  split_ifs
  · rfl
  · rfl

theorem literal_stop {d : Char} (hNe : c ≠ d) (more : Text) :
    literal id [d] (text ++ c :: more) = (literal id [d] text).map (· ++ c :: more) := by
  cases text with
  | nil => simp [literal, Ne.symm hNe]
  | cons e text =>
    by_cases hE : e = d
    · simp [literal, hE]
    · simp [literal, Ne.symm hE]

theorem dropWhile_stop (h : isSpace c = false ∨ text.dropWhile isSpace ≠ []) (more : Text) :
    (text ++ c :: more).dropWhile isSpace = text.dropWhile isSpace ++ c :: more := by
  induction text with
  | nil =>
    obtain hSpace | hNe := h
    · exact dropWhile_cons_of_neg (by rw [hSpace]; decide)
    · exact absurd rfl hNe
  | cons d text ih =>
    rw [cons_append]
    cases hD : isSpace d with
    | false =>
      rw [dropWhile_cons_of_neg (by rw [hD]; decide),
        dropWhile_cons_of_neg (by rw [hD]; decide), cons_append]
    | true =>
      rw [dropWhile_cons_of_pos hD] at h
      rw [dropWhile_cons_of_pos hD, dropWhile_cons_of_pos hD, ih h]

theorem numbers_stop (hC : Stops c) (more : Text) : numbers (text ++ c :: more) = numbers text := by
  unfold numbers
  simp only [digits_stop hC, literal_stop hC.dot, Option.bind_eq_bind, Option.bind_map,
    comp_def]

/-- What stands behind such a character makes no difference, if the match does not run into it. -/
theorem afterAddress_stop (hC : Stops c)
    (h : isSpace c = false ∨ (afterAddress text).isSome) (more : Text) :
    afterAddress (text ++ c :: more) = afterAddress text := by
  have hStart : isSpace c = false ∨ text.dropWhile isSpace ≠ [] := by
    refine h.imp_right fun hSome hNil => ?_
    rw [afterAddress, hNil] at hSome
    cases hSome
  unfold afterAddress at h ⊢
  rw [dropWhile_stop hStart, literal_stop hC.equals]
  cases hEquals : literal id ['='] (text.dropWhile isSpace) with
  | none => rfl
  | some rest =>
    have hRest : isSpace c = false ∨ rest.dropWhile isSpace ≠ [] := by
      refine h.imp_right fun hSome hNil => ?_
      rw [hEquals, Option.bind_some, hNil] at hSome
      cases hSome
    rw [Option.map_some, Option.bind_some, Option.bind_some, dropWhile_stop hRest,
      numbers_stop hC]

theorem exists_address (h : networkFrom text = some base) :
    ∃ before after, text = before ++ '\n' :: ("Address".toList ++ after) := by
  induction text with
  | nil => cases h
  | cons c text ih =>
    have hLater : networkFrom text = some base →
        ∃ before after, c :: text = before ++ '\n' :: ("Address".toList ++ after) := by
      intro hRest
      obtain ⟨before, after, rfl⟩ := ih hRest
      exact ⟨c :: before, after, rfl⟩
    unfold networkFrom at h
    split_ifs at h with hNewline
    · cases hHere : addressRe text with
      | none =>
        rw [hHere, Option.none_or] at h
        exact hLater h
      | some found =>
        obtain ⟨rest, hLiteral, -⟩ := Option.bind_eq_some_iff.mp hHere
        exact ⟨[], rest, by rw [hNewline, literal_eq_some.mp hLiteral]; rfl⟩
    · exact hLater h

/-- No match that begins before a later one runs over it. -/
theorem addressRe_append_none (h : addressRe text = none) (hLater : networkFrom text = some base)
    (more : Text) : addressRe (text ++ more) = none := by
  obtain ⟨before, after, hText⟩ := exists_address hLater
  by_contra hSome
  obtain ⟨found, hFound⟩ := Option.ne_none_iff_exists'.mp hSome
  obtain ⟨rest, hLiteral, hRest⟩ := Option.bind_eq_some_iff.mp hFound
  have hStart := literal_eq_some.mp hLiteral
  rw [hText, append_assoc] at hStart
  have hNewline : '\n' ∉ "Address".toList := by decide
  have hInner : ∃ inner, before = "Address".toList ++ inner ∧
      rest = inner ++ '\n' :: ("Address".toList ++ after ++ more) := by
    rcases append_eq_append_iff.mp hStart with
      ⟨inner, hInner, hSplit⟩ | ⟨inner, hInner, hSplit⟩
    · cases inner with
      | nil => exact ⟨[], by rw [hInner, append_nil, append_nil], hSplit.symm⟩
      | cons c inner =>
        obtain ⟨rfl, -⟩ := List.cons.inj hSplit
        exact absurd (hInner ▸ mem_append_right _ mem_cons_self) hNewline
    · exact ⟨inner, hInner, hSplit⟩
  obtain ⟨inner, rfl, rfl⟩ := hInner
  have hWord : "Address".toList = 'A' :: "ddress".toList := by decide
  have hStop : ∀ tail, afterAddress (inner ++ '\n' :: ("Address".toList ++ tail)) =
      afterAddress (inner ++ ['\n']) := by
    intro tail
    have hCut := @afterAddress_stop (inner ++ ['\n']) 'A' ⟨by decide, by decide, by decide⟩
      (.inl (by decide)) ("ddress".toList ++ tail)
    rw [← hCut, hWord]
    simp
  have hHere : addressRe text = afterAddress (inner ++ '\n' :: ("Address".toList ++ after)) := by
    have hWhole : text = "Address".toList ++
        (inner ++ '\n' :: ("Address".toList ++ after)) := by
      rw [hText, append_assoc]
    rw [addressRe, literal_eq_some.mpr hWhole, Option.bind_some]
  rw [append_assoc, hStop] at hRest
  rw [hHere, hStop, hRest] at h
  cases h

theorem networkFrom_append (h : networkFrom text = some base) (more : Text) :
    networkFrom (text ++ '\n' :: more) = some base := by
  induction text with
  | nil => cases h
  | cons c text ih =>
    rw [cons_append]
    unfold networkFrom at h ⊢
    split_ifs at h ⊢ with hNewline
    · cases hHere : addressRe text with
      | none =>
        rw [hHere, Option.none_or] at h
        rw [addressRe_append_none hHere h, Option.none_or]
        exact ih h
      | some found =>
        rw [hHere] at h
        obtain rfl := Option.some.inj h
        obtain ⟨rest, hLiteral, hRest⟩ := Option.bind_eq_some_iff.mp hHere
        have hLonger : addressRe (text ++ '\n' :: more) = some found := by
          rw [addressRe, literal_append hLiteral, Option.bind_some,
            afterAddress_stop ⟨by decide, by decide, by decide⟩
              (.inr (by rw [hRest]; rfl)), hRest]
        rw [hLonger]
        rfl
    · exact ih h

/-- A peer's block leaves the subnet as it is. -/
theorem networkOf_append (h : networkOf conf = some base) (more : Text) :
    networkOf (conf ++ '\n' :: more) = some base :=
  networkFrom_append h more

/-! ## The lines of a longer config -/

def confLines (conf : Text) : List Text := (conf.splitOn '\n').map strip

theorem lines_newline (text rest : Text) :
    (text ++ '\n' :: rest).splitOn '\n' = text.splitOn '\n' ++ rest.splitOn '\n' :=
  splitOn_append_cons_self text rest

variable {ip : Text}

theorem newline_blockLines {line : Text} (hIp : '\n' ∉ ip) (hLine : line ∈ blockLines spec ip) :
    '\n' ∉ line := by
  have hJoin : ∀ {word text : Text}, '\n' ∉ word → '\n' ∉ text → '\n' ∉ word ++ text :=
    fun hWord hText hMem => (mem_append.mp hMem).elim hWord hText
  have hName := (spec.plain spec.clientName (by simp)).2
  have hPublic := (spec.plain spec.publicKey (by simp)).2
  have hPreshared := (spec.plain spec.presharedKey (by simp)).2
  have hPrivate := (spec.plain spec.privateKey (by simp)).2
  unfold blockLines at hLine
  rcases mem_cons.mp hLine with rfl | hLine
  · exact hJoin (by decide) hName
  rcases mem_append.mp hLine with hLine | hLine
  · split_ifs at hLine
    · exact absurd hLine not_mem_nil
    · obtain rfl := mem_singleton.mp hLine
      exact hJoin (by decide) hPrivate
  · simp only [mem_cons, not_mem_nil, or_false] at hLine
    obtain rfl | rfl | rfl | rfl := hLine
    · decide
    · exact hJoin (by decide) hPublic
    · exact hJoin (by decide) hPreshared
    · exact hJoin (hJoin (by decide) hIp) (by decide)

theorem append_eq (conf : Text) (spec : PeerSpec) (ip : Text) : ∃ sep, (sep = [] ∨ sep = ['\n']) ∧
    appendPeerBlock conf spec ip =
      conf ++ sep ++ '\n' :: (['\n'].intercalate (blockLines spec ip) ++ ['\n']) := by
  unfold appendPeerBlock
  split_ifs
  · exact ⟨[], .inl rfl, by simp⟩
  · exact ⟨['\n'], .inr rfl, by simp⟩

theorem lines_append (hIp : '\n' ∉ ip) (line : Text) :
    line ∈ (appendPeerBlock conf spec ip).splitOn '\n' ↔
      line ∈ conf.splitOn '\n' ∨ line ∈ blockLines spec ip ∨ line = [] := by
  obtain ⟨sep, hSep, hAppend⟩ := append_eq conf spec ip
  have hBlock : (['\n'].intercalate (blockLines spec ip)).splitOn '\n' = blockLines spec ip :=
    splitOn_intercalate '\n' (fun _ => newline_blockLines hIp) (cons_ne_nil _ _)
  have hEnd : (['\n'].intercalate (blockLines spec ip) ++ ['\n']).splitOn '\n' =
      blockLines spec ip ++ [[]] := by
    rw [lines_newline, hBlock, splitOn_nil]
  rw [hAppend, lines_newline, hEnd, mem_append, mem_append, mem_singleton]
  obtain rfl | rfl := hSep
  · rw [append_nil]
  · rw [lines_newline, splitOn_nil, mem_append, mem_singleton, or_assoc]
    refine or_congr_right ⟨fun h => h.elim .inr id, .inr⟩

theorem confLines_append (hIp : '\n' ∉ ip) (line : Text) :
    line ∈ confLines (appendPeerBlock conf spec ip) ↔
      line ∈ confLines conf ∨ line ∈ (blockLines spec ip).map strip ∨ line = [] := by
  simp only [confLines, mem_map, lines_append hIp, or_and_right, exists_or, exists_eq_left]
  exact or_congr_right (or_congr_right eq_comm)

/-! ## New clients -/

/-- The clients are different ones, and new to the config. -/
structure Fresh (specs : List PeerSpec) (conf : Text) : Prop where
  nodup : (specs.map PeerSpec.clientName).Nodup
  absent : ∀ spec ∈ specs, ¬ peerExists conf spec.clientName

/-- Texts that begin with different words are different. -/
theorem append_ne {other text rest : Text} (h : ¬ word <+: other) (h' : ¬ other <+: word) :
    word ++ text ≠ other ++ rest := by
  intro hEq
  have hOther : other <+: word ++ text := ⟨rest, hEq.symm⟩
  obtain hWord | hWord := prefix_or_prefix_of_prefix (prefix_append word text) hOther
  · exact h hWord
  · exact h' hWord

theorem clientLine_mem_block {clientName : Text}
    (h : clientLine clientName ∈ blockLines spec ip) : clientName = spec.clientName := by
  unfold blockLines at h
  rcases mem_cons.mp h with hEq | h
  · exact append_cancel_left hEq
  rcases mem_append.mp h with h | h
  · split_ifs at h
    · exact absurd h not_mem_nil
    · exact absurd (mem_singleton.mp h) (append_ne (by decide) (by decide))
  simp only [mem_cons, not_mem_nil, or_false] at h
  obtain hEq | hEq | hEq | hEq := h
  · refine absurd (hEq.trans (append_nil _).symm) (append_ne ?_ ?_)
    · decide
    · decide
  · exact absurd hEq (append_ne (by decide) (by decide))
  · exact absurd hEq (append_ne (by decide) (by decide))
  · refine absurd (hEq.trans (append_assoc _ _ _)) (append_ne ?_ ?_)
    · decide
    · decide

theorem peerExists_append {clientName : Text} (hIp : '\n' ∉ ip)
    (hName : clientName ≠ spec.clientName) (h : ¬ peerExists conf clientName) :
    ¬ peerExists (appendPeerBlock conf spec ip) clientName := by
  intro hExists
  obtain hLine | hLine | hNil := (lines_append hIp _).mp hExists
  · exact h hLine
  · exact hName (clientLine_mem_block hLine)
  · have hKey := (append_eq_nil_iff.mp hNil).1
    revert hKey
    decide

theorem Fresh.append (hIp : '\n' ∉ ip) (h : Fresh (spec :: specs) conf) :
    Fresh specs (appendPeerBlock conf spec ip) := by
  obtain ⟨hFirst, hRest⟩ := nodup_cons.mp h.nodup
  refine ⟨hRest, fun other hOther => peerExists_append hIp (fun hEq => ?_)
    (h.absent other (mem_cons_of_mem _ hOther))⟩
  exact hFirst (hEq ▸ mem_map_of_mem hOther)

theorem Fresh.tail (h : Fresh (spec :: specs) conf) : Fresh specs conf :=
  ⟨(nodup_cons.mp h.nodup).2,
    fun other hOther => h.absent other (mem_cons_of_mem _ hOther)⟩

theorem networkOf_appendPeerBlock (hNetwork : networkOf conf = some base) (spec : PeerSpec)
    (ip : Text) : networkOf (appendPeerBlock conf spec ip) = some base := by
  obtain ⟨sep, rfl | rfl, hAppend⟩ := append_eq conf spec ip
  · rw [hAppend, append_nil]
    exact networkOf_append hNetwork _
  · rw [hAppend, append_assoc]
    exact networkOf_append hNetwork _

end AdminPanel.Failover.PeerSync

import AdminPanel.Failover.PeerSync

/-!
# Free addresses of a pool's member

An address is free if no peer's line `AllowedIPs = <address>/32` has it, and `_allocate_ip` takes it
for used if it is a substring of the config.

* `Taken`, `free` — the addresses of the peers, and the ones left;
* `Shadowed` — the addresses that stand in the config without being taken;
* `HandsOut` — every client gets the least free address;
* `address_infix_iff` — what stands in a config is taken or shadowed.

Main results: `handsOut_iff`; `sync_again`, a client's sync to a pool writes once.
-/

namespace AdminPanel.Failover.PeerSync

open List

open Lib.PyText (isSpace strip)

/-! ## Free addresses -/

/-- A peer of the config has the address, in the spelling `AllowedIPs = <address>/32` in which the
sync writes it. No other spelling is looked for. -/
def Taken (conf base : Text) (host : ℕ) : Prop :=
  host ∈ hosts ∧ allowedLine (address base host) ∈ confLines conf

instance (conf base : Text) (host : ℕ) : Decidable (Taken conf base host) :=
  inferInstanceAs (Decidable (_ ∧ _))

def free (conf base : Text) : List ℕ := hosts.filter fun host => ¬ Taken conf base host

/-- The digits of a taken address go on after this one, or another line has it as a substring. -/
def Shadowed (conf base : Text) (host : ℕ) : Prop :=
  (∃ taken, Taken conf base taken ∧ (taken / 10 = host ∨ taken / 100 = host)) ∨
    ∃ line ∈ confLines conf, (∀ other ∈ hosts, line ≠ allowedLine (address base other)) ∧
      address base host <:+: line

/-- Every client is to get the next free address, and to be refused if there is none left. -/
def promised (base : Text) : List ℕ → ℕ → List Outcome
  | _, 0 => []
  | [], count + 1 => .failed .exhausted :: promised base [] count
  | host :: free, count + 1 => .appended (address base host) :: promised base free count

/-- Addresses are handed out from the least one on, and clients that are not more than the free
addresses all get one of their own. -/
structure HandsOut (specs : List PeerSpec) (conf base : Text) : Prop where
  least : (syncAll specs conf).1 = promised base (free conf base) specs.length
  distinct : specs.length ≤ (free conf base).length →
    ∃ ips : List Text, ips.Nodup ∧ (syncAll specs conf).1 = ips.map .appended

variable {conf base text rest : Text} {host taken k own : ℕ} {spec : PeerSpec}
  {specs : List PeerSpec}

/-! ## Digits -/

variable {n : ℕ}

theorem toDigits_inj {m : ℕ} (h : Nat.toDigits 10 m = Nat.toDigits 10 n) : m = n := by
  have hRead := congrArg Lib.PyText.pyNat? h
  rw [Lib.PyText.pyNat?_toDigits, Lib.PyText.pyNat?_toDigits] at hRead
  exact Option.some.inj hRead

theorem toDigits_prefix_small (h : n < 10) : Nat.toDigits 10 k <+: Nat.toDigits 10 n ↔ k = n := by
  constructor
  · intro hPrefix
    have hOne : Nat.toDigits 10 n = [] ++ [n.digitChar] := Nat.toDigits_of_lt_base h
    rw [hOne] at hPrefix
    obtain hEq | hNil := prefix_concat_iff.mp hPrefix
    · exact toDigits_inj (hEq.trans hOne.symm)
    · exact absurd (prefix_nil.mp hNil) Nat.toDigits_ne_nil
  · rintro rfl
    exact prefix_refl _

theorem toDigits_prefix_large (h : 10 ≤ n) : Nat.toDigits 10 k <+: Nat.toDigits 10 n ↔
      k = n ∨ Nat.toDigits 10 k <+: Nat.toDigits 10 (n / 10) := by
  rw [Nat.toDigits_of_base_le (by decide) h, prefix_concat_iff,
    ← Nat.toDigits_of_base_le (by decide) h]
  exact or_congr_left ⟨toDigits_inj, congrArg _⟩

theorem mem_hosts : k ∈ hosts ↔ 2 ≤ k ∧ k ≤ 254 := by
  rw [hosts, mem_range'_1]
  omega

/-- A host's digits begin with another one's. -/
theorem toDigits_prefix (hHost : host ∈ hosts) (hTaken : taken ∈ hosts) :
    Nat.toDigits 10 host <+: Nat.toDigits 10 taken ↔
      host = taken ∨ taken / 10 = host ∨ taken / 100 = host := by
  obtain ⟨hLow, -⟩ := mem_hosts.mp hHost
  obtain ⟨-, hHigh⟩ := mem_hosts.mp hTaken
  have hHundred : taken / 10 / 10 = taken / 100 := Nat.div_div_eq_div_mul taken 10 10
  by_cases hSmall : taken < 10
  · rw [toDigits_prefix_small hSmall]
    omega
  · rw [toDigits_prefix_large (by omega)]
    by_cases hTens : taken / 10 < 10
    · rw [toDigits_prefix_small hTens]
      omega
    · rw [toDigits_prefix_large (by omega), toDigits_prefix_small (by omega), hHundred]
      omega

/-! ## Addresses in lines -/

variable {d : Char}

theorem digit_ne {c : Char} (h : d.isDigit = true) (hC : c.isDigit = false) : d ≠ c := by
  rintro rfl
  rw [h] at hC
  cases hC

theorem notMem_of_digits {c : Char} (h : ∀ d ∈ text, d.isDigit = true) (hC : c.isDigit = false) :
    c ∉ text :=
  fun hMem => digit_ne (h c hMem) hC rfl

/-- Three numbers and a fourth one are found among the same three numbers and another one. -/
theorem dotted_infix {key a b c m n suffix : Text} (hKey : '.' ∉ key) (hSuffix : '.' ∉ suffix)
    (hParts : ∀ part ∈ [a, b, c, m, n], '.' ∉ part) (hEnd : ∀ d ∈ suffix.head?, d ∉ m) :
    (a ++ '.' :: (b ++ '.' :: (c ++ '.' :: m))) <:+:
      key ++ (a ++ '.' :: (b ++ '.' :: (c ++ '.' :: n))) ++ suffix ↔ m <+: n := by
  have hNone : ∀ part ∈ [a, b, c, m, n], part.count '.' = 0 :=
    fun part hPart => count_eq_zero.mpr (hParts part hPart)
  have hA := hParts a (by simp)
  have hB := hParts b (by simp)
  have hC := hParts c (by simp)
  constructor
  · rintro ⟨before, after, hEq⟩
    have hCount := congrArg (List.count '.') hEq
    simp only [count_append, count_cons, hNone a (by simp), hNone b (by simp),
      hNone c (by simp), hNone m (by simp), hNone n (by simp), count_eq_zero.mpr hKey,
      count_eq_zero.mpr hSuffix] at hCount
    have hBefore : '.' ∉ before := by
      refine count_eq_zero.mp ?_
      omega
    have hFlat : (before ++ a) ++ '.' :: (b ++ '.' :: (c ++ '.' :: (m ++ after))) =
        (key ++ a) ++ '.' :: (b ++ '.' :: (c ++ '.' :: (n ++ suffix))) := by
      simpa using hEq
    have hFront : '.' ∉ before ++ a := fun hMem => (mem_append.mp hMem).elim hBefore hA
    have hOther : '.' ∉ key ++ a := fun hMem => (mem_append.mp hMem).elim hKey hA
    obtain ⟨-, hFlat⟩ := Lib.PyText.eq_of_append_cons hFront hOther hFlat
    have hFlat := (List.cons.inj (append_cancel_left hFlat)).2
    have hFlat := (List.cons.inj (append_cancel_left hFlat)).2
    rcases append_eq_append_iff.mp hFlat with ⟨more, hMore, -⟩ | ⟨more, hMore, hRest⟩
    · exact ⟨more, hMore.symm⟩
    · cases more with
      | nil => exact ⟨[], by rw [append_nil, hMore, append_nil]⟩
      | cons d more =>
        have hHead : d ∈ suffix.head? := by rw [hRest]; rfl
        exact absurd (hMore ▸ mem_append_right _ mem_cons_self) (hEnd d hHead)
  · rintro ⟨after, rfl⟩
    exact ⟨key, after ++ suffix, by simp⟩

/-- **How an address is found in a peer's line.** -/
theorem address_infix_allowedLine (hBase : IsBase base) (hHost : host ∈ hosts)
    (hTaken : taken ∈ hosts) : address base host <:+: allowedLine (address base taken) ↔
      host = taken ∨ taken / 10 = host ∨ taken / 100 = host := by
  rw [← toDigits_prefix hHost hTaken]
  obtain ⟨a, b, c, hParts, rfl⟩ := hBase
  have hDigits : ∀ n, ∀ d ∈ Nat.toDigits 10 n, d.isDigit = true :=
    fun _ _ => Lib.PyText.isDigit_toDigits
  have hFlat : ∀ n, address (a ++ '.' :: b ++ '.' :: c) n =
      a ++ '.' :: (b ++ '.' :: (c ++ '.' :: Nat.toDigits 10 n)) := by
    intro n
    simp [address]
  have hKey : '.' ∉ "AllowedIPs = ".toList := by decide
  have hSuffix : '.' ∉ "/32".toList := by decide
  have hSlash : "/32".toList.head? = some '/' := by decide
  rw [hFlat host, hFlat taken]
  unfold allowedLine
  refine dotted_infix hKey hSuffix ?_ ?_
  · intro part hPart
    have hAll : ∀ d ∈ part, d.isDigit = true := by
      simp only [mem_cons, not_mem_nil, or_false] at hPart
      obtain rfl | rfl | rfl | rfl | rfl := hPart
      · exact (hParts _ (by simp)).2
      · exact (hParts _ (by simp)).2
      · exact (hParts _ (by simp)).2
      · exact hDigits host
      · exact hDigits taken
    exact notMem_of_digits hAll (by decide)
  · intro d hHead
    rw [hSlash] at hHead
    cases hHead
    exact notMem_of_digits (hDigits host) (by decide)

/-! ## Addresses in a longer config -/

theorem address_inj {m : ℕ} (h : address base m = address base n) : m = n :=
  toDigits_inj (List.cons.inj (append_cancel_left h)).2

variable {ip : Text}

theorem allowedLine_inj {other : Text} (h : allowedLine ip = allowedLine other) : ip = other :=
  append_cancel_left (append_cancel_right h)

theorem allowedLine_ne_nil (ip : Text) : allowedLine ip ≠ [] := by
  intro h
  have hKey := (append_eq_nil_iff.mp (append_eq_nil_iff.mp h).1).1
  revert hKey
  decide

theorem isAddressChar (hBase : IsBase base) (hMem : d ∈ address base host) :
    d.isDigit = true ∨ d = '.' := by
  obtain ⟨a, b, c, hParts, rfl⟩ := hBase
  simp only [address, mem_append, mem_cons] at hMem
  obtain ((hA | rfl | hB) | rfl | hC) | rfl | hHost := hMem
  · exact .inl ((hParts a (by simp)).2 d hA)
  · exact .inr rfl
  · exact .inl ((hParts b (by simp)).2 d hB)
  · exact .inr rfl
  · exact .inl ((hParts c (by simp)).2 d hC)
  · exact .inr rfl
  · exact .inl (Lib.PyText.isDigit_toDigits hHost)

theorem notMem_address (hBase : IsBase base) (hDigit : d.isDigit = false)
    (hDot : d ≠ '.') : d ∉ address base host := by
  intro hMem
  obtain hTrue | hEq := isAddressChar hBase hMem
  · rw [hDigit] at hTrue
    cases hTrue
  · exact hDot hEq

theorem isSpace_address (hBase : IsBase base) (hMem : d ∈ address base host) : isSpace d = false := by
  obtain hDigit | rfl := isAddressChar hBase hMem
  · exact Lib.PyText.isSpace_of_isDigit hDigit
  · decide

theorem address_ne_nil : address base host ≠ [] :=
  append_ne_nil_of_right_ne_nil _ (cons_ne_nil _ _)

theorem dot_mem_address : '.' ∈ address base host := mem_append_right _ mem_cons_self

theorem not_infix_of_no_dot (h : '.' ∉ text) : ¬ address base host <:+: text :=
  fun hInfix => h (hInfix.subset dot_mem_address)

/-- An address is a substring of a config if it is one of a stripped line. -/
theorem address_infix_conf (hBase : IsBase base) :
    address base host <:+: conf ↔ ∃ line ∈ confLines conf, address base host <:+: line := by
  have hNewline : '\n' ∉ address base host := notMem_address hBase (by decide) (by decide)
  have hStrip : ∀ line, address base host <:+: strip line ↔ address base host <:+: line :=
    fun line => Lib.PyText.infix_strip (fun _ => isSpace_address hBase) address_ne_nil
  rw [Lib.PyText.infix_iff_line hNewline address_ne_nil, confLines]
  constructor
  · rintro ⟨line, hLine, hInfix⟩
    exact ⟨strip line, mem_map_of_mem hLine, (hStrip line).mpr hInfix⟩
  · rintro ⟨_, hLine, hInfix⟩
    obtain ⟨line, hRaw, rfl⟩ := mem_map.mp hLine
    exact ⟨line, hRaw, (hStrip line).mp hInfix⟩

theorem strip_allowedLine (ip : Text) : strip (allowedLine ip) = allowedLine ip := by
  have hKey : "AllowedIPs = ".toList = 'A' :: "llowedIPs = ".toList := by decide
  have hSuffix : "/32".toList = "/3".toList ++ ['2'] := by decide
  have hLine : allowedLine ip = ('A' :: ("llowedIPs = ".toList ++ ip ++ "/3".toList)) ++ ['2'] := by
    unfold allowedLine
    rw [hKey, hSuffix]
    simp
  rw [Lib.PyText.strip_eq_rdropWhile, hLine, cons_append,
    dropWhile_cons_of_neg (by decide), ← cons_append,
    rdropWhile_concat_neg _ _ _ (by decide)]

/-- The lines of a block that are not the address's have no dot. -/
theorem mem_block_strip {line : Text} (h : line ∈ (blockLines spec ip).map strip) :
    line = allowedLine ip ∨ '.' ∉ line := by
  obtain ⟨raw, hRaw, rfl⟩ := mem_map.mp h
  have hStrip : '.' ∉ raw → '.' ∉ strip raw := fun hNot hMem =>
    hNot (Lib.PyText.mem_of_mem_strip hMem)
  have hJoin : ∀ {word text : Text}, '.' ∉ word → '.' ∉ text → '.' ∉ word ++ text :=
    fun hWord hText hMem => (mem_append.mp hMem).elim hWord hText
  have hName := (spec.plain spec.clientName (by simp)).1
  have hPublic := (spec.plain spec.publicKey (by simp)).1
  have hPreshared := (spec.plain spec.presharedKey (by simp)).1
  have hPrivate := (spec.plain spec.privateKey (by simp)).1
  unfold blockLines at hRaw
  rcases mem_cons.mp hRaw with rfl | hRaw
  · exact .inr (hStrip (hJoin (by decide) hName))
  rcases mem_append.mp hRaw with hRaw | hRaw
  · split_ifs at hRaw
    · exact absurd hRaw not_mem_nil
    · obtain rfl := mem_singleton.mp hRaw
      exact .inr (hStrip (hJoin (by decide) hPrivate))
  · simp only [mem_cons, not_mem_nil, or_false] at hRaw
    obtain rfl | rfl | rfl | rfl := hRaw
    · exact .inr (hStrip (by decide))
    · exact .inr (hStrip (hJoin (by decide) hPublic))
    · exact .inr (hStrip (hJoin (by decide) hPreshared))
    · exact .inl (strip_allowedLine ip)

theorem mem_lines_block : allowedLine ip ∈ (blockLines spec ip).map strip :=
  mem_map.mpr ⟨allowedLine ip,
    mem_cons_of_mem _ (mem_append_right _ (mem_of_getLast? rfl)),
    strip_allowedLine ip⟩

/-- **What stands in a config** is taken or shadowed. -/
theorem address_infix_iff (hBase : IsBase base) (hHost : host ∈ hosts) :
    address base host <:+: conf ↔ Taken conf base host ∨ Shadowed conf base host := by
  rw [address_infix_conf hBase]
  constructor
  · rintro ⟨line, hLine, hInfix⟩
    by_cases hPeer : ∃ other ∈ hosts, line = allowedLine (address base other)
    · obtain ⟨other, hOther, rfl⟩ := hPeer
      obtain rfl | hLonger := (address_infix_allowedLine hBase hHost hOther).mp hInfix
      · exact .inl ⟨hHost, hLine⟩
      · exact .inr (.inl ⟨other, ⟨hOther, hLine⟩, hLonger⟩)
    · refine .inr (.inr ⟨line, hLine, fun other hOther hEq => ?_, hInfix⟩)
      exact hPeer ⟨other, hOther, hEq⟩
  · rintro (⟨-, hLine⟩ | ⟨other, ⟨hOther, hLine⟩, hLonger⟩ | ⟨line, hLine, -, hInfix⟩)
    · exact ⟨_, hLine, (address_infix_allowedLine hBase hHost hHost).mpr (.inl rfl)⟩
    · exact ⟨_, hLine, (address_infix_allowedLine hBase hHost hOther).mpr (.inr hLonger)⟩
    · exact ⟨line, hLine, hInfix⟩

theorem newline_address (hBase : IsBase base) : '\n' ∉ address base own :=
  notMem_address hBase (by decide) (by decide)

theorem taken_append (hBase : IsBase base) (hOwn : own ∈ hosts) :
    Taken (appendPeerBlock conf spec (address base own)) base host ↔
      Taken conf base host ∨ host = own := by
  unfold Taken
  rw [confLines_append (newline_address hBase)]
  constructor
  · rintro ⟨hHost, hLine | hLine | hNil⟩
    · exact .inl ⟨hHost, hLine⟩
    · obtain hEq | hDot := mem_block_strip hLine
      · exact .inr (address_inj (allowedLine_inj hEq))
      · have hInfix := (address_infix_allowedLine hBase hHost hHost).mpr (.inl rfl)
        exact absurd hInfix (not_infix_of_no_dot hDot)
    · exact absurd hNil (allowedLine_ne_nil _)
  · rintro (⟨hHost, hLine⟩ | rfl)
    · exact ⟨hHost, .inl hLine⟩
    · exact ⟨hOwn, .inr (.inl mem_lines_block)⟩

theorem Shadowed.append (hBase : IsBase base) (hOwn : own ∈ hosts) (h : Shadowed conf base host) :
    Shadowed (appendPeerBlock conf spec (address base own)) base host := by
  obtain ⟨other, hTaken, hLonger⟩ | ⟨line, hLine, hOther, hInfix⟩ := h
  · exact .inl ⟨other, (taken_append hBase hOwn).mpr (.inl hTaken), hLonger⟩
  · have hIp : '\n' ∉ address base own := newline_address hBase
    exact .inr ⟨line, (confLines_append hIp line).mpr (.inl hLine), hOther, hInfix⟩

/-- A peer's address shadows only lesser ones. -/
theorem shadowed_of_append (hBase : IsBase base) (hOwn : own ∈ hosts) (hLess : own < host)
    (h : Shadowed (appendPeerBlock conf spec (address base own)) base host) :
    Shadowed conf base host := by
  obtain ⟨other, hTaken, hLonger⟩ | ⟨line, hLine, hOther, hInfix⟩ := h
  · obtain hTaken | rfl := (taken_append hBase hOwn).mp hTaken
    · exact .inl ⟨other, hTaken, hLonger⟩
    · omega
  · obtain hLine | hLine | rfl := (confLines_append (newline_address hBase) line).mp hLine
    · exact .inr ⟨line, hLine, hOther, hInfix⟩
    · obtain hEq | hDot := mem_block_strip hLine
      · exact absurd hEq (hOther own hOwn)
      · exact absurd hInfix (not_infix_of_no_dot hDot)
    · exact absurd hInfix (not_infix_of_no_dot not_mem_nil)

/-! ## The least free address -/

theorem mem_free : k ∈ free conf base ↔ k ∈ hosts ∧ ¬ Taken conf base k := by
  rw [free, mem_filter, decide_eq_true_eq]

theorem free_sorted (conf base : Text) : (free conf base).Pairwise (· < ·) :=
  List.Pairwise.filter _ pairwise_lt_range'

theorem free_append {ks : List ℕ} (hBase : IsBase base) (hFree : free conf base = k :: ks) :
    free (appendPeerBlock conf spec (address base k)) base = ks := by
  have hOwn : k ∈ hosts := (mem_free.mp (hFree ▸ mem_cons_self)).1
  have hNotMem : k ∉ ks := fun hMem =>
    lt_irrefl k (rel_of_pairwise_cons (hFree ▸ free_sorted conf base) hMem)
  have hFilter : free (appendPeerBlock conf spec (address base k)) base =
      (free conf base).filter fun host => host ≠ k := by
    rw [free, free, filter_filter]
    refine filter_congr fun host _ => ?_
    rw [← Bool.decide_and, decide_eq_decide, taken_append hBase hOwn, not_or, and_comm]
  rw [hFilter, hFree, filter_cons_of_neg (by simp), filter_eq_self]
  exact fun host hHost => decide_eq_true fun hEq => hNotMem (hEq ▸ hHost)

/-- The address is the least one that is not in the config. -/
theorem allocateIp_eq_ok (hNetwork : networkOf conf = some base) (hHost : host ∈ hosts) :
    allocateIp conf = .ok (address base host) ↔ ¬ address base host <:+: conf ∧
      ∀ other ∈ hosts, other < host → address base other <:+: conf := by
  have hFind : hosts.find? (fun host => ¬ address base host <:+: conf) = some host ↔
      ¬ address base host <:+: conf ∧
        ∀ other ∈ hosts, other < host → address base other <:+: conf := by
    rw [hosts, List.find?_range'_eq_some, decide_eq_true_eq]
    refine and_congr_right fun _ => (and_iff_right hHost).trans ?_
    refine forall_congr' fun other => ?_
    have hRange := mem_hosts.mp hHost
    rw [Bool.not_eq_true', decide_eq_false_iff_not, not_not]
    constructor
    · exact fun h hOther hLess => h (mem_hosts.mp hOther).1 hLess
    · exact fun h hLow hLess => h (mem_hosts.mpr (by omega)) hLess
  rw [← hFind, allocateIp, hNetwork]
  dsimp only
  cases hosts.find? fun host => ¬ address base host <:+: conf with
  | none => exact ⟨nofun, nofun⟩
  | some found =>
    refine ⟨fun hOk => congrArg some (address_inj (Except.ok.inj hOk)), fun hSome => ?_⟩
    rw [Option.some.inj hSome]

theorem allocateIp_exhausted (hNetwork : networkOf conf = some base)
    (h : ∀ host ∈ hosts, address base host <:+: conf) : allocateIp conf = .error .exhausted := by
  have hFind : hosts.find? (fun host => ¬ address base host <:+: conf) = none :=
    List.find?_eq_none.mpr fun host hHost => by simpa using h host hHost
  rw [allocateIp, hNetwork]
  simp only [hFind]

/-! ## Handing out -/

theorem syncMember_exhausted (hNetwork : networkOf conf = some base)
    (hNew : ¬ peerExists conf spec.clientName) (hFree : free conf base = []) :
    syncMember spec conf = (.failed .exhausted, conf) := by
  have hBase := isBase_of_networkOf hNetwork
  have hAll : ∀ host ∈ hosts, address base host <:+: conf := by
    intro host hHost
    refine (address_infix_iff hBase hHost).mpr (.inl ?_)
    by_contra hNot
    exact not_mem_nil (hFree ▸ mem_free.mpr ⟨hHost, hNot⟩)
  rw [syncMember, if_neg hNew, allocateIp_exhausted hNetwork hAll]

/-- **A client's turn**: it gets the least free address if that one is not shadowed. -/
theorem syncMember_append {ks : List ℕ} (hNetwork : networkOf conf = some base)
    (hNew : ¬ peerExists conf spec.clientName) (hFree : free conf base = k :: ks)
    (hClear : ¬ Shadowed conf base k) : syncMember spec conf =
      (.appended (address base k), appendPeerBlock conf spec (address base k)) := by
  have hBase := isBase_of_networkOf hNetwork
  obtain ⟨hHost, hNotTaken⟩ := mem_free.mp (hFree ▸ mem_cons_self)
  have hOk : allocateIp conf = .ok (address base k) := by
    refine (allocateIp_eq_ok hNetwork hHost).mpr ⟨fun hInfix => ?_, fun other hOther hLess => ?_⟩
    · exact ((address_infix_iff hBase hHost).mp hInfix).elim hNotTaken hClear
    · refine (address_infix_iff hBase hOther).mpr (.inl ?_)
      by_contra hNot
      have hMem : other ∈ k :: ks := hFree ▸ mem_free.mpr ⟨hOther, hNot⟩
      obtain rfl | hMem := mem_cons.mp hMem
      · exact lt_irrefl _ hLess
      · exact lt_asymm hLess (rel_of_pairwise_cons (hFree ▸ free_sorted conf base) hMem)
  rw [syncMember, if_neg hNew, hOk]

/-- A shadowed address is not handed out. -/
theorem syncMember_shadowed (hNetwork : networkOf conf = some base) (hHost : k ∈ hosts)
    (hShadowed : Shadowed conf base k) :
    (syncMember spec conf).1 ≠ .appended (address base k) := by
  intro hAppended
  unfold syncMember at hAppended
  split_ifs at hAppended with hExists
  cases hOk : allocateIp conf with
  | error error =>
    rw [hOk] at hAppended
    cases hAppended
  | ok ip =>
    rw [hOk] at hAppended
    obtain rfl := Outcome.appended.inj hAppended
    exact ((allocateIp_eq_ok hNetwork hHost).mp hOk).1
      ((address_infix_iff (isBase_of_networkOf hNetwork) hHost).mpr (.inr hShadowed))

/-- Every client gets the next free address exactly if none of these is shadowed. -/
theorem least_iff (hNetwork : networkOf conf = some base) (hFresh : Fresh specs conf) :
    (syncAll specs conf).1 = promised base (free conf base) specs.length ↔
      ∀ host ∈ (free conf base).take specs.length, ¬ Shadowed conf base host := by
  have hBase := isBase_of_networkOf hNetwork
  induction specs generalizing conf with
  | nil => exact iff_of_true rfl fun _ hMem => absurd hMem not_mem_nil
  | cons spec specs ih =>
    have hNew := hFresh.absent spec mem_cons_self
    have hRun : (syncAll (spec :: specs) conf).1 =
        (syncMember spec conf).1 :: (syncAll specs (syncMember spec conf).2).1 := rfl
    rw [hRun, length_cons]
    cases hFree : free conf base with
    | nil =>
      have hRest := ih hNetwork hFresh.tail
      rw [hFree, take_nil] at hRest
      rw [syncMember_exhausted hNetwork hNew hFree, take_nil]
      refine iff_of_true (congrArg _ (hRest.mpr fun _ hMem => ?_)) fun _ hMem => ?_
      · exact absurd hMem not_mem_nil
      · exact absurd hMem not_mem_nil
    | cons k ks =>
      have hHost : k ∈ hosts := (mem_free.mp (hFree ▸ mem_cons_self)).1
      rw [take_succ_cons, forall_mem_cons]
      -- a shadowed address is passed over, and the first client gets another one
      by_cases hShadowed : Shadowed conf base k
      · refine iff_of_false (fun hEq => ?_) fun hAll => hAll.1 hShadowed
        exact syncMember_shadowed hNetwork hHost hShadowed (List.cons.inj hEq).1
      -- taking an address shadows no later one
      have hLater : ∀ host ∈ ks.take specs.length,
          Shadowed (appendPeerBlock conf spec (address base k)) base host ↔
            Shadowed conf base host := by
        intro host hMem
        have hLess : k < host := rel_of_pairwise_cons (hFree ▸ free_sorted conf base)
          (mem_of_mem_take hMem)
        exact ⟨shadowed_of_append hBase hHost hLess, Shadowed.append hBase hHost⟩
      have hRest := ih (networkOf_appendPeerBlock hNetwork spec (address base k))
        (hFresh.append (newline_address hBase))
      rw [free_append hBase hFree] at hRest
      rw [syncMember_append hNetwork hNew hFree hShadowed, and_iff_right hShadowed]
      refine ⟨fun hEq host hMem => ?_, fun hAll => congrArg _ (hRest.mpr fun host hMem => ?_)⟩
      · rw [← hLater host hMem]
        exact hRest.mp (List.cons.inj hEq).2 host hMem
      · rw [hLater host hMem]
        exact hAll host hMem

theorem promised_of_le {hosts : List ℕ} {count : ℕ} (h : count ≤ hosts.length) :
    promised base hosts count = ((hosts.take count).map (address base)).map .appended := by
  induction count generalizing hosts with
  | zero => cases hosts <;> rfl
  | succ count ih =>
    cases hosts with
    | nil => exact absurd h (Nat.not_succ_le_zero count)
    | cons host hosts =>
      rw [take_succ_cons, map_cons, map_cons, ← ih (Nat.le_of_succ_le_succ h)]
      rfl

/-- **A pool hands out every free address** exactly if none of the least free ones, as many as there
are clients, is shadowed. -/
theorem handsOut_iff (hNetwork : networkOf conf = some base) (hFresh : Fresh specs conf) :
    HandsOut specs conf base ↔
      ∀ host ∈ (free conf base).take specs.length, ¬ Shadowed conf base host := by
  constructor
  · exact fun hHandsOut => (least_iff hNetwork hFresh).mp hHandsOut.least
  intro hClear
  have hLeast := (least_iff hNetwork hFresh).mpr hClear
  refine ⟨hLeast, fun hLength => ?_⟩
  refine ⟨((free conf base).take specs.length).map (address base), ?_, ?_⟩
  · refine List.Pairwise.map _ (fun _ _ hLess hEq => ?_)
      ((free_sorted conf base).sublist (take_sublist _ _))
    exact hLess.ne (address_inj hEq)
  · rw [hLeast, promised_of_le hLength]

/-- A client and a config with one peer, at `10.28.9.host`. -/
def client : PeerSpec where
  clientName := "bob".toList
  publicKey := "cHVi".toList
  presharedKey := "cHNr".toList
  privateKey := []
  plain := by decide

def withPeer (host : ℕ) : Text :=
  "[Interface]\nAddress = 10.28.9.1/24\n\n# Client = alice\n[Peer]\n".toList ++
    allowedLine (address "10.28.9".toList host) ++ ['\n']

theorem handsOut_iff_bob : HandsOut [client] (withPeer 2) "10.28.9".toList ↔
    ∀ host ∈ (free (withPeer 2) "10.28.9".toList).take 1,
      ¬ Shadowed (withPeer 2) "10.28.9".toList host :=
  handsOut_iff (by decide) ⟨by decide, by decide⟩

/-- The digits of `10.28.9.20` begin with those of `10.28.9.2`, which is free. -/
theorem not_always_handsOut : ¬ ∀ specs conf base, networkOf conf = some base →
    Fresh specs conf → HandsOut specs conf base := by
  intro hAll
  have hLeast := (hAll [client] (withPeer 20) "10.28.9".toList (by decide)
    ⟨by decide, by decide⟩).least
  revert hLeast
  decide +kernel

/-! ## The same client again -/

theorem newline_allocated (h : allocateIp conf = .ok ip) : '\n' ∉ ip := by
  unfold allocateIp at h
  split at h
  · cases h
  next base hNetwork =>
    split at h
    · cases h
      exact newline_address (isBase_of_networkOf hNetwork)
    · cases h

/-- What a member makes of the client the next time. -/
def Outcome.again : Outcome → Outcome
  | .appended _ => .kept
  | outcome => outcome

theorem syncMember_again (spec : PeerSpec) (conf : Text) :
    syncMember spec (syncMember spec conf).2 =
      ((syncMember spec conf).1.again, (syncMember spec conf).2) := by
  by_cases hExists : peerExists conf spec.clientName
  · have hKept : syncMember spec conf = (.kept, conf) := if_pos hExists
    rw [hKept]
    exact hKept
  cases hIp : allocateIp conf with
  | error error =>
    have hFailed : syncMember spec conf = (.failed error, conf) := by
      rw [syncMember, if_neg hExists, hIp]
    rw [hFailed]
    exact hFailed
  | ok ip =>
    have hAppended : syncMember spec conf = (.appended ip, appendPeerBlock conf spec ip) := by
      rw [syncMember, if_neg hExists, hIp]
    have hThere : peerExists (appendPeerBlock conf spec ip) spec.clientName :=
      (lines_append (newline_allocated hIp) _).mpr (.inr (.inl mem_cons_self))
    rw [hAppended]
    exact if_pos hThere

/-- **A sync again writes nothing**: no member gets a second peer, and who failed fails again. -/
theorem sync_again (spec : PeerSpec) {members : List ℕ} (hNodup : members.Nodup)
    {confs confs' : ℕ → Text} {outcomes : List (ℕ × Outcome)}
    (hOnce : syncClientPeerToPool spec members confs = (outcomes, confs')) :
    syncClientPeerToPool spec members confs' =
      (outcomes.map fun turn => (turn.1, turn.2.again), confs') := by
  have hFirst := sync_member spec hNodup confs
  rw [hOnce] at hFirst
  obtain ⟨rfl, hConfs⟩ := hFirst
  obtain ⟨hOutcomes, hConfs'⟩ := sync_member spec hNodup confs'
  have hTurn : ∀ node ∈ members,
      syncMember spec (confs' node) = ((syncMember spec (confs node)).1.again, confs' node) := by
    intro node hNode
    have hConf : confs' node = (syncMember spec (confs node)).2 :=
      (hConfs node).trans (if_pos hNode)
    rw [hConf, syncMember_again]
  refine Prod.ext ?_ (funext fun node => ?_)
  · rw [hOutcomes, map_map]
    exact map_congr_left fun node hNode => by rw [hTurn node hNode]; rfl
  · rw [hConfs']
    split_ifs with hNode
    · rw [hTurn node hNode]
    · rfl

theorem sync_again_bob : (syncClientPeerToPool client [1, 2]
    (syncClientPeerToPool client [1, 2] fun _ => withPeer 2).2).1 = [(1, .kept), (2, .kept)] := by
  rw [sync_again client (by decide) rfl]
  decide +kernel

end AdminPanel.Failover.PeerSync

import AdminPanel.Failover.Isolation
import AdminPanel.Lib.PyLines

/-!
# Rules of a pool as they are printed

What `iptables-save` prints of the two rules of a pool, and what is read from it.

* `PoolRule` — the rule that sends packets on, and the one that lets the answers come back;
* `PoolRule.line` — its printed line, tagged with the label of the pool;
* `search_quiet` — the pattern is not found where no `j` stands before a blank.

Main results: `lineDestination_dnat`, `lineDestination_masq` — the address is read from the first
rule of the pair, and none from the second.
-/

namespace AdminPanel.Failover

open List Lib.PyText
open Lib.Ipv4 (parseAddress parseOctet isDigit_of_parseAddress)

/-! ## Rules of a pool -/

inductive PoolRule
  | dnat (port : Int) (ip : Text) (backendPort : Int)
  | masq (ip : Text) (backendPort : Int)
  deriving DecidableEq, Repr

def PoolRule.ip : PoolRule → Text
  | .dnat _ ip _ => ip
  | .masq ip _ => ip

def IsAddress (ip : Text) : Prop := (parseAddress ip).isSome = true

instance (ip : Text) : Decidable (IsAddress ip) := inferInstanceAs (Decidable (_ = true))

def commentFlag : Text := " -m comment --comment \"".toList

def dnatStart : Text := "-A PREROUTING -p udp -m udp --dport ".toList

def dnatTarget : Text := "\" -j DNAT --to-destination ".toList

def masqChain : Text := "-A POSTROUTING".toList

def masqAddress : Text := " -d ".toList

def masqPort : Text := "/32 -p udp -m udp --dport ".toList

def masqTarget : Text := "\" -j MASQUERADE".toList

/-- What `iptables-save` prints up to the comment. -/
def PoolRule.before : PoolRule → Text
  | .dnat port _ _ => dnatStart ++ (intText port ++ commentFlag)
  | .masq ip backendPort =>
    masqChain ++ (masqAddress ++ (ip ++ (masqPort ++ (intText backendPort ++ commentFlag))))

/-- What it prints behind it. -/
def PoolRule.after : PoolRule → Text
  | .dnat _ ip backendPort => dnatTarget ++ (ip ++ ':' :: intText backendPort)
  | .masq _ _ => masqTarget

/-! ## Characters of printed rules -/

/-- A character of addresses and numbers. -/
def IsNumeral (c : Char) : Prop := c = '.' ∨ c = '-' ∨ c.isDigit = true

variable {c : Char}

theorem IsNumeral.ne {d : Char} (h : IsNumeral c) (hDot : d ≠ '.') (hDash : d ≠ '-')
    (hDigit : d.isDigit = false) : c ≠ d := by
  rintro rfl
  rcases h with h | h | h
  · exact hDot h
  · exact hDash h
  · exact Bool.noConfusion (h.symm.trans hDigit)

theorem IsNumeral.notSpace (h : IsNumeral c) : isSpace c = false := by
  rcases h with rfl | rfl | h
  · decide
  · decide
  · exact isSpace_of_isDigit h

theorem numeral_of_mem_intText {n : Int} (h : c ∈ intText n) : IsNumeral c := by
  cases n with
  | ofNat n => exact .inr (.inr (isDigit_toDigits h))
  | negSucc n =>
    rcases mem_cons.mp h with rfl | h
    · exact .inr (.inl rfl)
    · exact .inr (.inr (isDigit_toDigits h))

variable {ip : Text}

theorem numeral_of_mem_address (hIp : IsAddress ip) (h : c ∈ ip) : IsNumeral c := by
  obtain ⟨_, hParse⟩ := Option.isSome_iff_exists.mp hIp
  rcases isDigit_of_parseAddress hParse h with hDot | hDigit
  · exact .inl hDot
  · exact .inr (.inr hDigit)

/-- A character that neither ends a line nor belongs to a tag. -/
def IsInner (c : Char) : Prop := isLineBreak c = false ∧ c ≠ 'z'

instance (c : Char) : Decidable (IsInner c) := inferInstanceAs (Decidable (_ ∧ _))

theorem IsNumeral.inner (h : IsNumeral c) : IsInner c := by
  refine ⟨?_, h.ne (by decide) (by decide) (by decide)⟩
  cases hBreak : isLineBreak c with
  | false => rfl
  | true => exact Bool.noConfusion (h.notSpace.symm.trans (isSpace_of_isLineBreak hBreak))

theorem inner_commentFlag : ∀ c ∈ commentFlag, IsInner c := by decide

theorem PoolRule.inner_before (rule : PoolRule) (hIp : IsAddress rule.ip) :
    ∀ c ∈ rule.before, IsInner c := by
  have hPort := fun n : Int => fun c (hC : c ∈ intText n) => (numeral_of_mem_intText hC).inner
  have hAddress := fun c (hC : c ∈ rule.ip) => (numeral_of_mem_address hIp hC).inner
  cases rule with
  | dnat port ip backendPort =>
    have hStart : ∀ c ∈ dnatStart, IsInner c := by decide
    simp only [PoolRule.before, forall_mem_append]
    exact ⟨hStart, hPort port, inner_commentFlag⟩
  | masq ip backendPort =>
    have hChain : ∀ c ∈ masqChain, IsInner c := by decide
    have hFlag : ∀ c ∈ masqAddress, IsInner c := by decide
    have hPortFlag : ∀ c ∈ masqPort, IsInner c := by decide
    simp only [PoolRule.before, forall_mem_append]
    exact ⟨hChain, hFlag, hAddress, hPortFlag, hPort backendPort, inner_commentFlag⟩

theorem PoolRule.inner_after (rule : PoolRule) (hIp : IsAddress rule.ip) :
    ∀ c ∈ rule.after, IsInner c := by
  cases rule with
  | dnat port ip backendPort =>
    have hTarget : ∀ c ∈ dnatTarget, IsInner c := by decide
    have hColon : IsInner ':' := by decide
    simp only [PoolRule.after, forall_mem_append, forall_mem_cons]
    exact ⟨hTarget, fun c hC => (numeral_of_mem_address hIp hC).inner, hColon,
      fun c hC => (numeral_of_mem_intText hC).inner⟩
  | masq ip backendPort =>
    show ∀ c ∈ masqTarget, IsInner c
    decide

variable {text : Text}

theorem not_tagWord_infix (h : ∀ c ∈ text, IsInner c) : ¬tagWord <:+: text := by
  intro hTag
  exact (h 'z' (hTag.subset (by decide))).2 rfl

theorem comment_oneLine (label : Label) :
    ∀ c ∈ comment .failover label.text, isLineBreak c = false := by
  have hWord : ∀ c ∈ Kind.word .failover, isLineBreak c = false := by decide
  rw [comment, forall_mem_append, forall_mem_cons]
  refine ⟨hWord, by decide, fun c hC => ?_⟩
  cases hBreak : isLineBreak c with
  | false => rfl
  | true =>
    cases hChar : isLabelChar c with
    | false => exact absurd hC (label_notMem hChar)
    | true =>
      exact Bool.noConfusion ((labelChar_plain hChar).1.symm.trans (isSpace_of_isLineBreak hBreak))

theorem PoolRule.head?_before (rule : PoolRule) : rule.before.head? = some '-' := by
  cases rule <;> rfl

theorem PoolRule.head?_after (rule : PoolRule) : rule.after.head? = some '"' := by
  cases rule <;> rfl

theorem PoolRule.getLast?_after (rule : PoolRule) :
    ∀ c ∈ rule.after.getLast?, isSpace c = false := by
  intro c hC
  cases rule with
  | dnat port ip backendPort =>
    have hAfter : PoolRule.after (.dnat port ip backendPort) =
        (dnatTarget ++ (ip ++ [':'])) ++ intText backendPort := by
      simp [PoolRule.after]
    rw [hAfter, List.getLast?_append_of_ne_nil _ (intText_ne_nil backendPort)] at hC
    exact isSpace_intText (mem_of_getLast? hC)
  | masq ip backendPort =>
    have hLast : masqTarget.getLast? = some 'E' := by decide
    rw [PoolRule.after, hLast] at hC
    exact Option.some.inj hC ▸ (by decide)

/-- A rule of the pool as it is printed. -/
def PoolRule.line (label : Label) (rule : PoolRule) (hIp : IsAddress rule.ip) : TaggedLine where
  kind := .failover
  label := label
  before := rule.before
  after := rule.after
  oneLine := by
    intro c hC
    rcases mem_append.mp hC with hC | hC
    · rcases mem_append.mp hC with hC | hC
      · exact (rule.inner_before hIp c hC).1
      · exact comment_oneLine label c hC
    · exact (rule.inner_after hIp c hC).1
  stripped := by
    refine strip_of_ends ?_ ?_
    · rw [append_assoc, List.head?_append, rule.head?_before]
      exact fun c hC => Option.some.inj hC ▸ (by decide)
    · have hNe : rule.after ≠ [] := by
        intro hNil
        have hHead := rule.head?_after
        rw [hNil] at hHead
        cases hHead
      rw [List.getLast?_append_of_ne_nil _ hNe]
      exact rule.getLast?_after
  isRule := by
    cases rule with
    | dnat port ip backendPort =>
      exact List.IsPrefix.trans (by decide) (prefix_append dnatStart _)
    | masq ip backendPort =>
      exact List.IsPrefix.trans (by decide) (prefix_append masqChain _)
  beforeClean := not_tagWord_infix (rule.inner_before hIp)
  afterClean := not_tagWord_infix (rule.inner_after hIp)
  ends := by
    rw [rule.head?_after]
    exact fun c hC => .inl (Option.some.inj hC).symm

/-! ## What is detected in a printed rule -/

/-- One to three digits. -/
def IsOctet (digits : Text) : Prop :=
  digits ≠ [] ∧ digits.length ≤ 3 ∧ ∀ c ∈ digits, c.isDigit = true

variable {digits rest : Text}

theorem octet_append (h : IsOctet digits) (hRest : ∀ c ∈ rest.head?, c.isDigit = false) :
    octet (digits ++ rest) = some (digits, rest) := by
  obtain ⟨hNe, hLength, hDigits⟩ := h
  have hTake : ((digits ++ rest).take 3).takeWhile Char.isDigit = digits := by
    rw [take_append, take_of_length_le hLength, takeWhile_append_of_pos hDigits]
    cases rest with
    | nil => rw [take_nil, takeWhile_nil, append_nil]
    | cons c rest =>
      cases 3 - digits.length with
      | zero => rw [take_zero, takeWhile_nil, append_nil]
      | succ n =>
        rw [take_succ_cons, takeWhile_cons_of_neg (by rw [hRest c rfl]; decide),
          append_nil]
  rw [octet, hTake, if_neg hNe, drop_left]

theorem isOctet_of_parseOctet {n : Nat} (h : parseOctet digits = some n) : IsOctet digits := by
  rw [parseOctet] at h
  split_ifs at h with hParse
  obtain ⟨hDigits, hLength, -, -⟩ := hParse
  rw [Lib.Ipv4.isDigits, Bool.and_eq_true, decide_eq_true_eq, all_eq_true] at hDigits
  exact ⟨hDigits.1, hLength, hDigits.2⟩

/-- An address is four octets between dots. -/
theorem octets_of_isAddress (h : IsAddress ip) : ∃ a b c d, IsOctet a ∧ IsOctet b ∧
    IsOctet c ∧ IsOctet d ∧ ip = a ++ '.' :: (b ++ '.' :: (c ++ '.' :: d)) := by
  obtain ⟨_, hParse⟩ := Option.isSome_iff_exists.mp h
  rw [parseAddress] at hParse
  split at hParse
  · rename_i hParts
    obtain ⟨a, parts, hSplit, hA, hParts⟩ := map_eq_cons_iff.mp hParts
    obtain ⟨b, parts, rfl, hB, hParts⟩ := map_eq_cons_iff.mp hParts
    obtain ⟨c, parts, rfl, hC, hParts⟩ := map_eq_cons_iff.mp hParts
    obtain ⟨d, parts, rfl, hD, hParts⟩ := map_eq_cons_iff.mp hParts
    obtain rfl := map_eq_nil_iff.mp hParts
    refine ⟨a, b, c, d, isOctet_of_parseOctet hA, isOctet_of_parseOctet hB,
      isOctet_of_parseOctet hC, isOctet_of_parseOctet hD, ?_⟩
    have hIp : ['.'].intercalate (ip.splitOn '.') = ip := intercalate_splitOn '.'
    rw [← hIp, hSplit]
    simp [List.intercalate]
  · cases hParse

theorem octets_dot {n : Nat} (hDigits : IsOctet digits) (h : octets n text = some (ip, rest)) :
    octets (n + 1) (digits ++ '.' :: text) = some (digits ++ '.' :: ip, rest) := by
  have hOctet : octet (digits ++ '.' :: text) = some (digits, '.' :: text) :=
    octet_append hDigits fun c hC => Option.some.inj hC ▸ (by decide)
  simp only [octets, hOctet, Option.bind_some, h, Option.map_some]

theorem octets_address (hIp : IsAddress ip) (hRest : ∀ c ∈ rest.head?, c.isDigit = false) :
    octets 3 (ip ++ rest) = some (ip, rest) := by
  obtain ⟨a, b, c, d, hA, hB, hC, hD, rfl⟩ := octets_of_isAddress hIp
  simp only [append_assoc, cons_append]
  exact octets_dot hA (octets_dot hB (octets_dot hC (octet_append hD hRest)))

theorem literal_append (fold : Char → Char) (word text : Text) :
    literal fold word (word ++ text) = some text := by
  rw [literal, take_left, drop_left, if_pos rfl]

theorem spaces_blank (h : ∀ c ∈ text.head?, isSpace c = false) : spaces (' ' :: text) = some text := by
  rw [spaces, dropWhile_cons_of_pos (by decide), dropWhile_of_head h]
  rfl

/-- No `j` stands before a blank. -/
def quiet : Text → Bool
  | c :: d :: text => !(c.toLower = 'j' && isSpace d) && quiet (d :: text)
  | _ => true

theorem quiet_cons (h : c.toLower = 'j' → ∀ d ∈ text.head?, isSpace d = false) :
    quiet (c :: text) = quiet text := by
  cases text with
  | nil => rfl
  | cons d text =>
    by_cases hJ : c.toLower = 'j'
    · simp [quiet, h hJ d rfl]
    · simp [quiet, hJ]

theorem quiet_append (hText : ∀ c ∈ text, c.toLower ≠ 'j') : quiet (text ++ rest) = quiet rest := by
  induction text with
  | nil => rfl
  | cons c text ih =>
    rw [forall_mem_cons] at hText
    rw [cons_append, quiet_cons fun hJ => absurd hJ hText.1, ih hText.2]

theorem quiet_word {word : Text} (hWord : ∀ c ∈ word, isSpace c = false)
    (hRest : ∀ d ∈ rest.head?, isSpace d = false) : quiet (word ++ rest) = quiet rest := by
  induction word with
  | nil => rfl
  | cons c word ih =>
    rw [forall_mem_cons] at hWord
    rw [cons_append, quiet_cons, ih hWord.2]
    intro _ d hD
    cases word with
    | nil => exact hRest d hD
    | cons d' word => exact hWord.2 d (Option.some.inj hD ▸ mem_cons_self)

/-- The pattern begins with a dash, a `j` and a blank. -/
theorem dnatToRe_start (h : dnatToRe (c :: text) = some ip) :
    ∃ d e rest, text = d :: e :: rest ∧ d.toLower = 'j' ∧ isSpace e = true := by
  obtain ⟨more, hLiteral, h⟩ := Option.bind_eq_some_iff.mp h
  obtain ⟨_, hSpaces, -⟩ := Option.bind_eq_some_iff.mp h
  rw [literal] at hLiteral
  rw [spaces] at hSpaces
  split_ifs at hLiteral hSpaces with hDash hBlank
  cases hLiteral
  cases text with
  | nil => cases hBlank
  | cons d text =>
    cases text with
    | nil => cases hBlank
    | cons e text =>
      refine ⟨d, e, text, rfl, ?_, by simpa using hBlank⟩
      have hChars : ['-', 'j'] = [c.toLower, d.toLower] := hDash
      exact (List.cons.inj (List.cons.inj hChars).2).1.symm

/-- Nothing is found before the place where the rest begins. -/
theorem search_quiet (h : quiet (text ++ [c]) = true) (hC : c.toLower ≠ 'j') :
    search dnatToRe (text ++ c :: rest) = search dnatToRe (c :: rest) := by
  induction text with
  | nil => rfl
  | cons b text ih =>
    have hNone : dnatToRe (b :: (text ++ c :: rest)) = none := by
      refine Option.eq_none_iff_forall_ne_some.mpr fun ip hIp => ?_
      obtain ⟨d, e, more, hText, hD, hE⟩ := dnatToRe_start hIp
      cases text with
      | nil =>
        obtain ⟨rfl, -⟩ := List.cons.inj hText
        exact hC hD
      | cons d' text =>
        obtain ⟨rfl, hMore⟩ := List.cons.inj hText
        cases text with
        | nil | cons e' text =>
          obtain ⟨rfl, -⟩ := List.cons.inj hMore
          simp [quiet, hD, hE] at h
    have hRest : quiet (text ++ [c]) = true := by
      cases text with
      | nil => rfl
      | cons d text =>
        rw [cons_append, cons_append, quiet, Bool.and_eq_true] at h
        exact h.2
    rw [← ih hRest]
    simp only [search, cons_append, List.tails, List.findSome?_cons, hNone]

theorem IsNumeral.not_j (h : IsNumeral c) : c.toLower ≠ 'j' := by
  rcases h with rfl | rfl | h
  · decide
  · decide
  · rw [toLower_of_isDigit h]
    rintro rfl
    cases h

/-- What is printed of a rule before the dash of its target. -/
theorem quiet_before_dnat (label : Label) (port : Int) (ip : Text) (backendPort : Int) :
    quiet ((PoolRule.before (.dnat port ip backendPort) ++ (comment .failover label.text ++
      ['"', ' '])) ++ ['-']) = true := by
  have hStart : ∀ c ∈ dnatStart, c.toLower ≠ 'j' := by decide
  have hFlag : ∀ c ∈ commentFlag, c.toLower ≠ 'j' := by decide
  have hWord : ∀ c ∈ Kind.word .failover ++ [':'], c.toLower ≠ 'j' := by decide
  have hEnd : ∀ d ∈ ['"', ' ', '-'].head?, isSpace d = false := by decide
  have hSplit : (PoolRule.before (.dnat port ip backendPort) ++ (comment .failover label.text ++
      ['"', ' '])) ++ ['-'] = dnatStart ++ (intText port ++ (commentFlag ++
        ((Kind.word .failover ++ [':']) ++ (label.text ++ ['"', ' ', '-'])))) := by
    simp [PoolRule.before, comment]
  rw [hSplit, quiet_append hStart, quiet_append fun c hC => (numeral_of_mem_intText hC).not_j,
    quiet_append hFlag, quiet_append hWord, quiet_word (fun c hC => (label.plain c hC).1) hEnd]
  decide

theorem search_here (h : dnatToRe (c :: text) = some ip) : search dnatToRe (c :: text) = some ip := by
  rw [search, List.tails, List.findSome?_cons, h]

theorem dnatToRe_target (hIp : IsAddress ip) (hRest : ∀ c ∈ rest.head?, c.isDigit = false) :
    dnatToRe ("-j".toList ++ ' ' :: ("DNAT".toList ++ ' ' :: ("--to-destination".toList ++
      ' ' :: (ip ++ rest)))) = some ip := by
  have hSpace : ∀ c ∈ (ip ++ rest).head?, isSpace c = false := by
    obtain ⟨a, _, _, _, hA, -, -, -, rfl⟩ := octets_of_isAddress hIp
    cases a with
    | nil => exact absurd rfl hA.1
    | cons c a =>
      intro d hD
      cases hD
      exact isSpace_of_isDigit (hA.2.2 c mem_cons_self)
  have hTarget : spaces (' ' :: (ip ++ rest)) = some (ip ++ rest) := spaces_blank hSpace
  have hFlag : ∀ text, spaces (' ' :: ("--to-destination".toList ++ text)) =
      some ("--to-destination".toList ++ text) :=
    fun text => spaces_blank fun c hC => Option.some.inj hC ▸ (by decide)
  have hWord : ∀ text, spaces (' ' :: ("DNAT".toList ++ text)) = some ("DNAT".toList ++ text) :=
    fun text => spaces_blank fun c hC => Option.some.inj hC ▸ (by decide)
  simp only [dnatToRe, literal_append, hWord, hFlag, hTarget, octets_address hIp hRest,
    Option.bind_eq_bind, Option.bind_some]
  rfl

theorem dnat_text (label : Label) (port : Int) (backendPort : Int) (hIp : IsAddress ip) :
    (PoolRule.line label (.dnat port ip backendPort) hIp).text =
      (PoolRule.before (.dnat port ip backendPort) ++ (comment .failover label.text ++
        ['"', ' '])) ++ ("-j".toList ++ ' ' :: ("DNAT".toList ++ ' ' ::
          ("--to-destination".toList ++ ' ' :: (ip ++ ':' :: intText backendPort)))) := by
  have hTarget : dnatTarget = ['"', ' '] ++ ("-j".toList ++ ' ' :: ("DNAT".toList ++ ' ' ::
      ("--to-destination".toList ++ [' ']))) := by decide
  simp only [TaggedLine.text, PoolRule.line, PoolRule.after, hTarget, append_assoc,
    cons_append, nil_append]

theorem lineDestination_eq_search (kind : Kind) {line : Text}
    (hChain : "PREROUTING".toList <:+: line) (hDnat : "DNAT".toList <:+: line.map Char.toUpper) :
    lineDestination kind line = search kind.pattern line := by
  unfold lineDestination
  exact if_neg (not_or.mpr ⟨not_not.mpr hChain, not_not.mpr hDnat⟩)

theorem lineDestination_eq_none (kind : Kind) {line : Text}
    (hChain : ¬ "PREROUTING".toList <:+: line) : lineDestination kind line = none := by
  unfold lineDestination
  exact if_pos (.inl hChain)

/-- **A printed rule of the pool is read back**: the rule that sends packets on has its address. -/
theorem lineDestination_dnat (label : Label) (port : Int) (backendPort : Int) (hIp : IsAddress ip) :
    lineDestination .failover (PoolRule.line label (.dnat port ip backendPort) hIp).text =
      some ip := by
  have hChain : "PREROUTING".toList <:+: (PoolRule.line label (.dnat port ip backendPort) hIp).text :=
    List.IsInfix.trans (by decide : _ <:+: dnatStart) ⟨[], _, rfl⟩
  have hDnat : "DNAT".toList <:+:
      (PoolRule.line label (.dnat port ip backendPort) hIp).text.map Char.toUpper := by
    have hWord : "DNAT".toList.map Char.toUpper = "DNAT".toList := by decide
    have hTarget : "DNAT".toList <:+: dnatTarget := by decide
    rw [← hWord]
    refine (hTarget.trans ?_).map _
    exact (prefix_append dnatTarget _).isInfix.trans (suffix_append _ _).isInfix
  have hFirst : dnatToRe ('-' :: ('j' :: ' ' :: ("DNAT".toList ++ ' ' ::
      ("--to-destination".toList ++ ' ' :: (ip ++ ':' :: intText backendPort))))) = some ip :=
    dnatToRe_target hIp fun c hC => Option.some.inj hC ▸ (by decide)
  have hWords : "-j".toList = ['-', 'j'] := by decide
  rw [lineDestination_eq_search _ hChain hDnat, dnat_text, hWords]
  exact (search_quiet (quiet_before_dnat label port ip backendPort) (by decide)).trans
    (search_here hFirst)

/-- A MASQUERADE rule has no destination. -/
theorem lineDestination_masq (label : Label) (backendPort : Int) (hIp : IsAddress ip) :
    lineDestination .failover (PoolRule.line label (.masq ip backendPort) hIp).text = none := by
  have hChain : ¬"PREROUTING".toList <:+:
      (PoolRule.line label (.masq ip backendPort) hIp).text := by
    rintro ⟨u, v, hText⟩
    have hRest : 'G' ∉ masqAddress ++ (ip ++ (masqPort ++ (intText backendPort ++ commentFlag))) ++
        comment .failover label.text ++ masqTarget := by
      have hNumeral : ∀ c, IsNumeral c → c ≠ 'G' :=
        fun c hC => hC.ne (by decide) (by decide) (by decide)
      simp only [mem_append, not_or, comment, mem_cons]
      exact ⟨⟨⟨by decide, fun hC => hNumeral _ (numeral_of_mem_address hIp hC) rfl,
        by decide, fun hC => hNumeral _ (numeral_of_mem_intText hC) rfl,
        by decide⟩, by decide, by decide, label_notMem (by decide)⟩,
        by decide⟩
    have hCut : masqChain ++ (masqAddress ++ (ip ++ (masqPort ++ (intText backendPort ++
        commentFlag))) ++ comment .failover label.text ++ masqTarget) =
        (u ++ "PREROUTIN".toList) ++ 'G' :: v := by
      have hWord : "PREROUTING".toList = "PREROUTIN".toList ++ ['G'] := by decide
      rw [hWord] at hText
      simpa [TaggedLine.text, PoolRule.line, PoolRule.before, PoolRule.after] using hText.symm
    obtain ⟨m, hFront⟩ := mark_in_front hRest hCut
    have hE : 'E' ∈ masqChain := by
      rw [hFront]
      exact mem_append_left _ (mem_append_right _ (by decide))
    exact absurd hE (by decide)
  exact lineDestination_eq_none _ hChain

end AdminPanel.Failover

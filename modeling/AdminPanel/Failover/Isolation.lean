import AdminPanel.Failover.Rules
import AdminPanel.Lib.Procedure

/-!
# Pools that share a front

The saved rules of a front are those of `proxy.sh` and the tagged rules of any pools.

* `Label`, `Line` — valid labels, and a line of the saved rules with its tag;
* `comment_infix_tagged` — a comment is found in the tagged lines whose label begins with the label;
* `Isolated` — what is planned for one pool does not depend on the rules of another, and names
  no rule of it;
* `Undisturbed` — the first destination that is found for a pool is not that of another;
* `tagsOf` — the tags that a command names.

Main result: `isolated_iff` — a pool is isolated from another exactly when it is undisturbed by
its rules.
-/

namespace AdminPanel.Failover

open Lib (bind_ok)
open List Lib.PyText
open Lib.Ipv4 (isDigit_of_parseAddress)

/-! ## Labels and lines -/

/-- A label as `validate_failover_label` leaves it. -/
structure Label where
  text : Text
  valid : isFailoverLabel text = true
  deriving DecidableEq

/-- What every tag begins with. -/
def tagWord : Text := "az-failover".toList

/-- A rule with the comment of a pool: `after` begins with the closing quote, with the blank after
the comment, or is empty. -/
structure TaggedLine where
  kind : Kind
  label : Label
  before : Text
  after : Text
  oneLine : ∀ c ∈ before ++ comment kind label.text ++ after, isLineBreak c = false
  stripped : strip (before ++ comment kind label.text ++ after) =
    before ++ comment kind label.text ++ after
  isRule : "-A ".toList <+: before
  beforeClean : ¬tagWord <:+: before
  afterClean : ¬tagWord <:+: after
  ends : ∀ c ∈ after.head?, c = '"' ∨ c = ' '

/-- Any other line, such as a rule of `proxy.sh`. -/
structure PlainLine where
  text : Text
  oneLine : ∀ c ∈ text, isLineBreak c = false
  clean : ¬tagWord <:+: text

/-- A line of `iptables-save -t nat`. -/
inductive Line
  | plain (line : PlainLine)
  | tagged (line : TaggedLine)

def TaggedLine.text (line : TaggedLine) : Text :=
  line.before ++ comment line.kind line.label.text ++ line.after

def Line.text : Line → Text
  | .plain line => line.text
  | .tagged line => line.text

def savedRules (lines : List Line) : Text := unlines (lines.map Line.text)

/-- The line is a rule of the pool. -/
def Line.isOf (label : Label) : Line → Bool
  | .plain _ => false
  | .tagged line => line.label = label

/-- The saved rules without those of a pool. -/
def without (label : Label) (lines : List Line) : List Line :=
  lines.filter fun line => !line.isOf label

/-! ## Where a comment is found -/

theorem label_notMem {label : Label} {c : Char} (h : isLabelChar c = false) : c ∉ label.text := by
  intro hMem
  have hValid := label.valid
  simp only [isFailoverLabel, Bool.and_eq_true] at hValid
  rw [all_eq_true.mp hValid.1.2 c hMem] at h
  cases h

theorem tagWord_prefix_word (kind : Kind) : tagWord <+: kind.word := by
  cases kind <;> decide

theorem notMem_word {kind : Kind} : ':' ∉ kind.word ∧ '"' ∉ kind.word ∧ ' ' ∉ kind.word := by
  cases kind <;> decide

theorem word_suffix {k k' : Kind} {u v : Text} (h : u ++ k.word = v ++ k'.word) : k = k' := by
  have hLast := congrArg List.getLast? h
  have hWords : ∀ k : Kind, k.word ≠ [] := by
    intro k
    cases k <;> decide
  rw [List.getLast?_append_of_ne_nil _ (hWords k), List.getLast?_append_of_ne_nil _ (hWords k')]
    at hLast
  cases k <;> cases k' <;> first | rfl | exact absurd hLast (by decide)

/-- A text cut at a mark in two ways: at one place, or the first cut is before the other, or
behind it. -/
theorem cut_cases {α : Type} {mark : α} {a b a' b' : List α}
    (h : a ++ mark :: b = a' ++ mark :: b') :
    (a = a' ∧ b = b') ∨ (∃ m, a' = a ++ mark :: m) ∨
      ∃ m, a = a' ++ mark :: m ∧ b' = m ++ mark :: b := by
  rcases append_eq_append_iff.mp h with ⟨m, hA, hB⟩ | ⟨m, hA, hB⟩
  · cases m with
    | nil =>
      rw [append_nil] at hA
      exact .inl ⟨hA.symm, (List.cons.inj hB).2⟩
    | cons c m =>
      obtain ⟨rfl, -⟩ := List.cons.inj hB
      exact .inr (.inl ⟨m, hA⟩)
  · cases m with
    | nil =>
      rw [append_nil] at hA
      exact .inl ⟨hA, (List.cons.inj hB).2.symm⟩
    | cons c m =>
      obtain ⟨rfl, hB'⟩ := List.cons.inj hB
      exact .inr (.inr ⟨m, hA, hB'⟩)

/-- A mark behind which there is none lies before it. -/
theorem mark_in_front {α : Type} {mark : α} {a b a' m : List α} (hB : mark ∉ b)
    (h : a ++ b = a' ++ mark :: m) : ∃ m', a = a' ++ mark :: m' := by
  rcases append_eq_append_iff.mp h with ⟨n, -, hRest⟩ | ⟨n, hA, hRest⟩
  · exact absurd (hRest ▸ mem_append_right n mem_cons_self) hB
  · cases n with
    | nil =>
      rw [nil_append] at hRest
      exact absurd (hRest ▸ mem_cons_self) hB
    | cons c n =>
      obtain ⟨rfl, -⟩ := List.cons.inj hRest
      exact ⟨n, hA⟩

/-- **A comment is found in a tagged line of the same kind whose label begins with the label**, and
nowhere else in it. -/
theorem comment_infix_tagged {kind : Kind} {label : Label} {line : TaggedLine} :
    comment kind label.text <:+: line.text ↔
      line.kind = kind ∧ label.text <+: line.label.text := by
  constructor
  · rintro ⟨u, v, hLine⟩
    have hCut : (u ++ kind.word) ++ ':' :: (label.text ++ v) =
        (line.before ++ line.kind.word) ++ ':' :: (line.label.text ++ line.after) := by
      simpa [comment, TaggedLine.text] using hLine
    rcases cut_cases hCut with ⟨hWords, hRest⟩ | ⟨m, hBefore⟩ | ⟨m, hWord, hAfter⟩
    · -- the colon of the comment is that of the tag
      refine ⟨(word_suffix hWords).symm, ?_⟩
      rcases append_eq_append_iff.mp hRest with ⟨n, hLabel, -⟩ | ⟨n, hLabel, hAfter⟩
      · exact ⟨n, hLabel.symm⟩
      · cases n with
        | nil =>
          rw [append_nil] at hLabel
          exact ⟨[], by rw [append_nil, hLabel]⟩
        | cons c n =>
          have hMem : c ∈ label.text := by
            rw [hLabel]
            exact mem_append_right _ mem_cons_self
          rcases line.ends c (by rw [hAfter]; rfl) with rfl | rfl
          · exact absurd hMem (label_notMem (by decide))
          · exact absurd hMem (label_notMem (by decide))
    · -- it is one before the tag
      obtain ⟨m', hFront⟩ := mark_in_front notMem_word.1 hBefore
      refine absurd ?_ line.beforeClean
      rw [hFront]
      exact ((tagWord_prefix_word kind).isInfix.trans ((suffix_append u _).isInfix)).trans
        (prefix_append _ _).isInfix
    · -- it is one behind the label
      refine absurd ?_ line.afterClean
      obtain ⟨a, hM, hRest⟩ : ∃ a, m = line.label.text ++ a ∧
          line.after = a ++ ':' :: (label.text ++ v) := by
        rcases append_eq_append_iff.mp hAfter with ⟨n, hM, hRest⟩ | ⟨n, hLabel, hRest⟩
        · exact ⟨n, hM, hRest⟩
        · cases n with
          | nil => exact ⟨[], by rw [hLabel, append_nil, append_nil], hRest.symm⟩
          | cons c n =>
            obtain ⟨rfl, -⟩ := List.cons.inj hRest
            have hMem : ':' ∈ line.label.text := by
              rw [hLabel]
              exact mem_append_right _ mem_cons_self
            exact absurd hMem (label_notMem (by decide))
      obtain ⟨front, hFront⟩ := mark_in_front notMem_word.1 hWord
      have hTail : front ++ kind.word = m := by
        rw [hFront, append_assoc] at hWord
        exact (List.cons.inj (append_cancel_left hWord)).2
      cases a with
      | nil =>
        rcases line.ends ':' (by rw [hRest]; rfl) with hColon | hColon <;>
          exact absurd hColon (by decide)
      | cons c a =>
        have hNot : c ∉ kind.word := by
          rcases line.ends c (by rw [hRest]; rfl) with rfl | rfl
          · exact notMem_word.2.1
          · exact notMem_word.2.2
        obtain ⟨mid, hMid⟩ := mark_in_front hNot (hTail.trans hM)
        have hWordIn : mid ++ kind.word = a := by
          rw [hMid, hM, append_assoc] at hTail
          exact (List.cons.inj (append_cancel_left hTail)).2
        refine (tagWord_prefix_word kind).isInfix.trans ⟨c :: mid, ':' :: (label.text ++ v), ?_⟩
        rw [hRest, ← hWordIn]
        simp
  · rintro ⟨rfl, n, hLabel⟩
    refine ⟨line.before, n ++ line.after, ?_⟩
    rw [TaggedLine.text, comment, comment, ← hLabel]
    simp

theorem strip_isInfix (s : Text) : strip s <:+: s := by
  rw [strip_eq_rdropWhile]
  exact (List.rdropWhile_prefix _ _).isInfix.trans (dropWhile_suffix _).isInfix

/-- A plain line has no comment of a pool. -/
theorem comment_notInfix_plain (kind : Kind) (label : Label) (line : PlainLine) :
    ¬comment kind label.text <:+: strip line.text := by
  intro h
  have hWord : tagWord <:+: comment kind label.text :=
    (tagWord_prefix_word kind).isInfix.trans (prefix_append _ _).isInfix
  exact line.clean (hWord.trans (h.trans (strip_isInfix line.text)))

/-! ## Detection -/

/-- The address of a rule of the kind whose label has `p`. -/
def Line.destination? (kind : Kind) (p : Label → Bool) : Line → Option Text
  | .plain _ => none
  | .tagged line => if line.kind = kind ∧ p line.label then lineDestination kind line.text else none

/-- The label begins with that of the pool. -/
def Label.begins (label other : Label) : Bool := label.text.isPrefixOf other.text

theorem findSome?_filter_eq {α β : Type} {l : List α} {p : α → Bool} {f g : α → Option β}
    (h : ∀ a ∈ l, g a = if p a then f a else none) : (l.filter p).findSome? f = l.findSome? g := by
  induction l with
  | nil => rfl
  | cons a l ih =>
    rw [forall_mem_cons] at h
    rw [filter_cons, List.findSome?_cons, h.1, ← ih h.2]
    cases p a with
    | false => rfl
    | true => exact List.findSome?_cons

/-- The address that is detected for a pool is that of the first rule whose label begins with the
label of the pool. -/
theorem detectDestination_savedRules (kind : Kind) (label : Label) (lines : List Line) :
    detectDestination kind (savedRules lines) label.text =
      lines.findSome? (Line.destination? kind label.begins) := by
  have hLines : splitLines (savedRules lines) = lines.map Line.text := by
    refine splitLines_unlines _ fun text hText c hC => ?_
    obtain ⟨line, -, rfl⟩ := mem_map.mp hText
    cases line with
    | plain line | tagged line => exact line.oneLine c hC
  rw [detectDestination, ruleLines, hLines, map_map, filter_map, List.findSome?_map]
  refine findSome?_filter_eq fun line _ => ?_
  have hQuoted : ∀ text : Text, comment kind label.text <:+: text ∨
      ¬('"' :: comment kind label.text ++ ['"']) <:+: text := by
    intro text
    by_cases hFound : comment kind label.text <:+: text
    · exact .inl hFound
    · refine .inr fun hText => hFound (List.IsInfix.trans ⟨['"'], ['"'], ?_⟩ hText)
      simp
  cases line with
  | plain line =>
    have hNone := comment_notInfix_plain kind label line
    simp only [Function.comp, Line.text, Line.destination?, hNone,
      (hQuoted _).resolve_left hNone, not_false_eq_true, and_self, if_true, ite_self]
  | tagged line =>
    have hText : strip (Line.tagged line).text = line.text := line.stripped
    have hRule : "-A ".toList <+: line.text :=
      line.isRule.trans ((prefix_append _ _).trans (prefix_append _ _))
    have hBegins : label.begins line.label = true ↔ label.text <+: line.label.text :=
      isPrefixOf_iff_prefix
    simp only [Function.comp, hText, hRule, decide_true, if_true, Line.destination?]
    by_cases hFound : comment kind label.text <:+: line.text
    · have hTag := comment_infix_tagged.mp hFound
      rw [if_pos ⟨hTag.1, hBegins.mpr hTag.2⟩, if_neg fun hNot => hNot.2 hFound]
    · have hTag : ¬(line.kind = kind ∧ label.begins line.label = true) := by
        rw [hBegins, ← comment_infix_tagged]
        exact hFound
      rw [if_neg hTag, if_pos ⟨(hQuoted _).resolve_left hFound, hFound⟩]

theorem findSome?_without (kind : Kind) (p : Label → Bool) (label : Label) (lines : List Line) :
    (without label lines).findSome? (Line.destination? kind p) =
      lines.findSome? (Line.destination? kind fun other => p other && other ≠ label) := by
  refine findSome?_filter_eq fun line _ => ?_
  cases line with
  | plain line => rfl
  | tagged line =>
    simp only [Line.destination?, Line.isOf]
    by_cases hLabel : line.label = label
    · simp [hLabel]
    · simp [hLabel]

/-! ## Isolation -/

/-- The tags that a command names. -/
def tagsOf (argv : Argv) : List Text := argv.filter fun token => tagWord.isPrefixOf token

/-- Every command of a plan that is made names one tag, the comment of the pool: no rule of another
pool, and no rule without a tag. -/
def NamesOnly (tag : Text) (plan : Except PlanError (List Argv)) : Prop :=
  ∀ commands, plan = .ok commands → ∀ argv ∈ commands, tagsOf argv = [tag]

/-- What is detected and planned for the pool `l1` on the saved rules is the same without the rules
of the pool `l2`, and names only rules of `l1`. -/
structure Isolated (l1 l2 : Label) (lines : List Line) : Prop where
  detectFailover : detectFailoverDestination (savedRules lines) l1.text =
    detectFailoverDestination (savedRules (without l2 lines)) l1.text
  switchFailover : ∀ port newIp backendPort,
    planFailoverSwitch (savedRules lines) l1.text port newIp backendPort =
      planFailoverSwitch (savedRules (without l2 lines)) l1.text port newIp backendPort
  teardownFailover : ∀ port backendPort,
    planFailoverTeardown (savedRules lines) l1.text port backendPort =
      planFailoverTeardown (savedRules (without l2 lines)) l1.text port backendPort
  detectAwg3 : detectAwg3Destination (savedRules lines) l1.text =
    detectAwg3Destination (savedRules (without l2 lines)) l1.text
  switchAwg3 : ∀ newIp, planAwg3Switch (savedRules lines) l1.text newIp =
    planAwg3Switch (savedRules (without l2 lines)) l1.text newIp
  teardownAwg3 : planAwg3Teardown (savedRules lines) l1.text =
    planAwg3Teardown (savedRules (without l2 lines)) l1.text
  namesSwitch : ∀ port newIp backendPort, NamesOnly (comment .failover l1.text)
    (planFailoverSwitch (savedRules lines) l1.text port newIp backendPort)
  namesTeardown : ∀ port backendPort, NamesOnly (comment .failover l1.text)
    (planFailoverTeardown (savedRules lines) l1.text port backendPort)
  namesAwg3Switch : ∀ newIp, NamesOnly (comment .awg3 l1.text)
    (planAwg3Switch (savedRules lines) l1.text newIp)
  namesAwg3Teardown : NamesOnly (comment .awg3 l1.text)
    (planAwg3Teardown (savedRules lines) l1.text)

/-- The first rule whose label begins with `l1` and that has an address is not one of `l2`, or goes
to the address of the first such rule that is not. -/
def Undisturbed (kind : Kind) (l1 l2 : Label) (lines : List Line) : Prop :=
  ∀ rule ip, lines.find? (fun line => (line.destination? kind l1.begins).isSome) = some rule →
    rule.isOf l2 = true → rule.destination? kind l1.begins = some ip →
    ∃ other, lines.find? (fun line =>
        (line.destination? kind fun label => l1.begins label && label ≠ l2).isSome) = some other ∧
      other.destination? kind l1.begins = some ip

/-- Two searches of which the second passes over some of the entries: they find the same when the
first entry is not passed over, or the next one has the same value. -/
theorem findSome?_eq_iff {α β : Type} {l : List α} {f g : α → Option β} {skip : α → Bool}
    (h : ∀ a, g a = if skip a then none else f a) :
    l.findSome? f = l.findSome? g ↔
      ∀ a b, l.find? (fun a => (f a).isSome) = some a → skip a = true → f a = some b →
        ∃ other, l.find? (fun a => (g a).isSome) = some other ∧ f other = some b := by
  induction l with
  | nil => simp
  | cons a l ih =>
    have hG := h a
    cases hF : f a with
    | none =>
      have hNone : g a = none := by rw [hG, hF, ite_self]
      simp only [List.findSome?_cons, List.find?_cons, hF, hNone, Option.isSome_none]
      exact ih
    | some b =>
      cases hSkip : skip a with
      | false =>
        rw [hSkip, hF] at hG
        refine iff_of_true ?_ ?_
        · rw [List.findSome?_cons, List.findSome?_cons, hF, hG]
          rfl
        · intro a' b' hA hSkipped
          rw [List.find?_cons, hF] at hA
          obtain rfl : a = a' := Option.some.inj hA
          rw [hSkip] at hSkipped
          cases hSkipped
      | true =>
        rw [hSkip, if_pos rfl] at hG
        simp only [List.findSome?_cons, List.find?_cons, hF, hG, Option.isSome_some,
          Option.isSome_none]
        constructor
        · intro hSame a' b' hA _ hB
          obtain rfl : a = a' := Option.some.inj hA
          obtain rfl : b = b' := Option.mem_unique hF hB
          obtain ⟨before, other, after, rfl, hOther, hBefore⟩ :=
            List.findSome?_eq_some_iff.mp hSame.symm
          refine ⟨other, ?_, ?_⟩
          · rw [List.find?_append, List.find?_eq_none.mpr (by simpa using hBefore)]
            simp [hOther]
          · have hShown := h other
            rw [hOther] at hShown
            split at hShown
            · cases hShown
            · exact hShown.symm
        · intro hNext
          obtain ⟨other, hFind, hOther⟩ := hNext a b rfl hSkip hF
          obtain ⟨hSome, before, after, rfl, hBefore⟩ := List.find?_eq_some_iff_append.mp hFind
          have hShown := h other
          have hValue : g other = some b := by
            split at hShown
            · rw [hShown] at hSome
              cases hSome
            · rw [hShown, hOther]
          refine (List.findSome?_eq_some_iff.mpr ⟨before, other, after, rfl, hValue, ?_⟩).symm
          intro x hX
          simpa using hBefore x hX

/-- **What is detected for a pool is undisturbed** exactly when the first rule that is taken for one
of its own is not a rule of the other, or makes no difference. -/
theorem detect_eq_iff (kind : Kind) (l1 l2 : Label) (lines : List Line) :
    detectDestination kind (savedRules lines) l1.text =
      detectDestination kind (savedRules (without l2 lines)) l1.text ↔
    Undisturbed kind l1 l2 lines := by
  rw [detectDestination_savedRules, detectDestination_savedRules, findSome?_without]
  refine @findSome?_eq_iff _ _ lines _ _ (Line.isOf l2) fun line => ?_
  cases line with
  | plain line => rfl
  | tagged line =>
    simp only [Line.destination?, Line.isOf]
    by_cases hLabel : line.label = l2
    · simp [hLabel]
    · simp [hLabel]

/-! ## The tags of a plan -/

theorem tagsOf_words {text : List String} (h : tagsOf (words text) = []) (rest : Argv) :
    tagsOf (words text ++ rest) = tagsOf rest := by
  rw [tagsOf, filter_append, ← tagsOf, ← tagsOf, h, nil_append]

theorem tagsOf_comment (kind : Kind) (label : Text) (rest : Argv) :
    tagsOf (comment kind label :: rest) = comment kind label :: tagsOf rest := by
  have hTag : tagWord.isPrefixOf (comment kind label) = true :=
    isPrefixOf_iff_prefix.mpr ((tagWord_prefix_word kind).trans (prefix_append _ _))
  rw [tagsOf, filter_cons, if_pos hTag, ← tagsOf]

/-- What does not begin with an `a` is no tag. -/
theorem tagsOf_skip {token : Text} (h : token.head? ≠ some 'a') (rest : Argv) :
    tagsOf (token :: rest) = tagsOf rest := by
  have hTag : ¬tagWord.isPrefixOf token = true := by
    rintro hTag
    obtain ⟨more, rfl⟩ := isPrefixOf_iff_prefix.mp hTag
    exact h rfl
  rw [tagsOf, filter_cons, if_neg hTag, ← tagsOf]

theorem head?_ne_of_notMem {token : Text} (h : 'a' ∉ token) : token.head? ≠ some 'a' :=
  fun hHead => h (mem_of_head? hHead)

theorem head?_append_ne {token rest : Text} (h : 'a' ∉ token) (hRest : rest.head? ≠ some 'a') :
    (token ++ rest).head? ≠ some 'a' := by
  cases token with
  | nil => exact hRest
  | cons c token => exact fun hC => h (Option.some.inj hC ▸ mem_cons_self)

theorem a_notMem_intText (n : Int) : 'a' ∉ intText n := by
  intro h
  cases n with
  | ofNat n => exact absurd (isDigit_toDigits h) (by decide)
  | negSucc n =>
    rcases mem_cons.mp h with hMinus | hDigits
    · exact absurd hMinus (by decide)
    · exact absurd (isDigit_toDigits hDigits) (by decide)

theorem a_notMem_octet {text digits rest : Text} (h : octet text = some (digits, rest)) :
    'a' ∉ digits := by
  rw [octet] at h
  split_ifs at h
  obtain ⟨rfl, -⟩ := Prod.mk.inj (Option.some.inj h)
  exact fun hA => absurd (mem_takeWhile_imp hA) (by decide)

theorem a_notMem_octets {n : Nat} {text ip rest : Text} (h : octets n text = some (ip, rest)) :
    'a' ∉ ip := by
  induction n generalizing text ip rest with
  | zero => exact a_notMem_octet h
  | succ n ih =>
    obtain ⟨⟨first, more⟩, hFirst, h⟩ := Option.bind_eq_some_iff.mp h
    dsimp only at h
    split at h
    · obtain ⟨⟨others, rest⟩, hOthers, h⟩ := Option.map_eq_some_iff.mp h
      obtain ⟨rfl, -⟩ := Prod.mk.inj h
      rw [mem_append, mem_cons, not_or, not_or]
      exact ⟨a_notMem_octet hFirst, by decide, ih hOthers⟩
    · cases h

theorem a_notMem_pattern {kind : Kind} {text ip : Text} (h : kind.pattern text = some ip) :
    'a' ∉ ip := by
  cases kind with
  | failover =>
    simp only [Kind.pattern, dnatToRe, Option.bind_eq_bind, Option.bind_eq_some_iff] at h
    obtain ⟨_, -, _, -, _, -, _, -, _, -, _, -, ⟨_, _⟩, hIp, hReturn⟩ := h
    exact Option.some.inj hReturn ▸ a_notMem_octets hIp
  | awg3 =>
    simp only [Kind.pattern, awg3DnatToRe, Option.bind_eq_bind, Option.bind_eq_some_iff] at h
    obtain ⟨_, -, _, -, ⟨_, _⟩, hIp, _, -, hReturn⟩ := h
    exact Option.some.inj hReturn ▸ a_notMem_octets hIp

theorem a_notMem_detected {kind : Kind} {rules label ip : Text}
    (h : detectDestination kind rules label = some ip) : 'a' ∉ ip := by
  obtain ⟨line, -, hLine⟩ := exists_of_findSome?_eq_some h
  split_ifs at hLine
  unfold lineDestination at hLine
  generalize "PREROUTING".toList = chain at hLine
  generalize "DNAT".toList = target at hLine
  split_ifs at hLine
  obtain ⟨_, -, hPattern⟩ := exists_of_findSome?_eq_some hLine
  exact a_notMem_pattern hPattern

theorem a_notMem_address {value ip : Text} (h : parseIpv4 value = .ok ip) : 'a' ∉ ip := by
  rw [parseIpv4] at h
  split at h
  · rename_i hAddress
    split_ifs at h
    cases h
    intro hA
    rcases isDigit_of_parseAddress hAddress hA with hDot | hDigit
    · exact absurd hDot (by decide)
    · exact absurd hDigit (by decide)
  · cases h

theorem Action.head?_flag (action : Action) : action.flag.head? ≠ some 'a' := by
  cases action <;> decide

theorem tagsOf_failoverPair (label : Text) (port backendPort : Int) (action : Action) {ip : Text}
    (hIp : 'a' ∉ ip) :
    ∀ argv ∈ failoverPair label port backendPort action ip,
      tagsOf argv = [comment .failover label] := by
  have hPort := fun n => head?_ne_of_notMem (a_notMem_intText n)
  have hTarget : (ip ++ ':' :: intText backendPort).head? ≠ some 'a' :=
    head?_append_ne hIp (by simp)
  intro argv hArgv
  simp only [failoverPair, mem_cons, not_mem_nil, or_false] at hArgv
  rcases hArgv with rfl | rfl
  · simp only [failoverDnatArgv, append_assoc, cons_append]
    rw [tagsOf_words (by decide), tagsOf_skip action.head?_flag,
      tagsOf_words (by decide), tagsOf_skip (hPort port), tagsOf_words (by decide),
      tagsOf_comment, tagsOf_words (by decide), tagsOf_skip hTarget]
    rfl
  · simp only [failoverMasqArgv, append_assoc, cons_append]
    rw [tagsOf_words (by decide), tagsOf_skip action.head?_flag,
      tagsOf_words (by decide), tagsOf_skip (head?_ne_of_notMem hIp),
      tagsOf_words (by decide), tagsOf_skip (hPort backendPort),
      tagsOf_words (by decide), tagsOf_comment]
    rfl

theorem tagsOf_awg3Pair (label : Text) (action : Action) {ip : Text} (hIp : 'a' ∉ ip) :
    ∀ argv ∈ awg3Pair label action ip, tagsOf argv = [comment .awg3 label] := by
  have hTarget : (ip ++ ":51900-51999".toList).head? ≠ some 'a' :=
    head?_append_ne hIp (by decide)
  intro argv hArgv
  simp only [awg3Pair, mem_cons, not_mem_nil, or_false] at hArgv
  rcases hArgv with rfl | rfl
  · simp only [awg3DnatArgv, append_assoc, cons_append]
    rw [tagsOf_words (by decide), tagsOf_skip action.head?_flag,
      tagsOf_words (by decide), tagsOf_comment, tagsOf_words (by decide),
      tagsOf_skip hTarget]
    rfl
  · simp only [awg3MasqArgv, append_assoc, cons_append]
    rw [tagsOf_words (by decide), tagsOf_skip action.head?_flag,
      tagsOf_words (by decide), tagsOf_skip (head?_ne_of_notMem hIp),
      tagsOf_words (by decide), tagsOf_comment]
    rfl

theorem names_teardownPair {tag : Text} {pair : Action → Text → List Argv} {old : Option Text}
    (hPair : ∀ action ip, 'a' ∉ ip → ∀ argv ∈ pair action ip, tagsOf argv = [tag])
    (hOld : ∀ ip, old = some ip → 'a' ∉ ip) :
    ∀ argv ∈ teardownPair pair old, tagsOf argv = [tag] := by
  cases old with
  | none =>
    intro argv hArgv
    cases hArgv
  | some ip => exact hPair .delete ip (hOld ip rfl)

theorem names_switchPair {tag new : Text} {pair : Action → Text → List Argv} {old : Option Text}
    (hPair : ∀ action ip, 'a' ∉ ip → ∀ argv ∈ pair action ip, tagsOf argv = [tag])
    (hOld : ∀ ip, old = some ip → 'a' ∉ ip) (hNew : 'a' ∉ new) :
    ∀ argv ∈ switchPair pair old new, tagsOf argv = [tag] := by
  intro argv hArgv
  rw [switchPair] at hArgv
  split_ifs at hArgv
  · cases hArgv
  · rcases mem_append.mp hArgv with hArgv | hArgv
    · exact names_teardownPair hPair hOld argv hArgv
    · exact hPair .append new hNew argv hArgv

theorem isLabelChar_bounds {c : Char} (h : isLabelChar c = true) :
    (97 ≤ c.toNat ∧ c.toNat ≤ 122) ∨ c.isDigit = true ∨ c = '_' ∨ c = '-' := by
  simp only [isLabelChar, isLabelStart, Bool.or_eq_true, Bool.and_eq_true, decide_eq_true_eq,
    UInt32.le_iff_toNat_le, Char.le_def] at h
  rcases h with ((hLetter | hDigit) | hUnderscore) | hDash
  · exact .inl hLetter
  · exact .inr (.inl hDigit)
  · exact .inr (.inr (.inl hUnderscore))
  · exact .inr (.inr (.inr hDash))

theorem labelChar_plain {c : Char} (h : isLabelChar c = true) :
    isSpace c = false ∧ c.toLower = c := by
  rcases isLabelChar_bounds h with hLetter | hDigit | rfl | rfl
  · constructor
    · simp only [isSpace, Bool.or_eq_false_iff, Bool.and_eq_false_iff, decide_eq_false_iff_not]
      omega
    · apply toLower_of_not_isUpper
      rw [Bool.eq_false_iff, ne_eq, isUpper_iff]
      omega
  · exact ⟨isSpace_of_isDigit hDigit, toLower_of_isDigit hDigit⟩
  · decide
  · decide

theorem Label.plain (label : Label) : ∀ c ∈ label.text, isSpace c = false ∧ c.toLower = c := by
  intro c hC
  cases hChar : isLabelChar c with
  | true => exact labelChar_plain hChar
  | false => exact absurd hC (label_notMem hChar)

/-- A valid label is stored as it is. -/
theorem validateFailoverLabel_valid (label : Label) :
    validateFailoverLabel label.text = .ok label.text := by
  have hStrip : strip label.text = label.text :=
    strip_of_not_space fun c hC => (label.plain c hC).1
  have hLower : label.text.map Char.toLower = label.text := by
    conv_rhs => rw [← map_id label.text]
    exact map_congr_left fun c hC => (label.plain c hC).2
  rw [validateFailoverLabel, hStrip, hLower, if_pos label.valid]

/-! ## Two pools on one front -/

/-- A plan goes on with the label as it is. -/
theorem labelled_ok {label : Label} {plan : Text → Except PlanError (List Argv)}
    {commands : List Argv} (h : (validateFailoverLabel label.text >>= plan) = .ok commands) :
    plan label.text = .ok commands := by
  rwa [validateFailoverLabel_valid] at h

theorem names_planFailoverSwitch (rules : Text) (label : Label) (port : Int) (newIp : Text)
    (backendPort : Option Int) : NamesOnly (comment .failover label.text)
      (planFailoverSwitch rules label.text port newIp backendPort) := by
  intro commands hPlan
  obtain ⟨port, -, hPlan⟩ := bind_ok (labelled_ok hPlan)
  obtain ⟨backendPort, -, hPlan⟩ := bind_ok hPlan
  obtain ⟨new, hNew, hPlan⟩ := bind_ok hPlan
  cases hPlan
  exact names_switchPair (tagsOf_failoverPair label.text port backendPort)
    (fun _ => a_notMem_detected) (a_notMem_address hNew)

theorem names_planFailoverTeardown (rules : Text) (label : Label) (port : Int)
    (backendPort : Option Int) : NamesOnly (comment .failover label.text)
      (planFailoverTeardown rules label.text port backendPort) := by
  intro commands hPlan
  obtain ⟨port, -, hPlan⟩ := bind_ok (labelled_ok hPlan)
  obtain ⟨backendPort, -, hPlan⟩ := bind_ok hPlan
  cases hPlan
  exact names_teardownPair (tagsOf_failoverPair label.text port backendPort)
    (fun _ => a_notMem_detected)

theorem names_planAwg3Switch (rules : Text) (label : Label) (newIp : Text) :
    NamesOnly (comment .awg3 label.text) (planAwg3Switch rules label.text newIp) := by
  intro commands hPlan
  obtain ⟨new, hNew, hPlan⟩ := bind_ok (labelled_ok hPlan)
  cases hPlan
  exact names_switchPair (fun action _ => tagsOf_awg3Pair label.text action)
    (fun _ => a_notMem_detected) (a_notMem_address hNew)

theorem names_planAwg3Teardown (rules : Text) (label : Label) :
    NamesOnly (comment .awg3 label.text) (planAwg3Teardown rules label.text) := by
  intro commands hPlan
  obtain rfl := Except.ok.inj (labelled_ok hPlan)
  exact names_teardownPair (fun action _ => tagsOf_awg3Pair label.text action)
    (fun _ => a_notMem_detected)

/-- **A pool is isolated from another** exactly when, for both kinds of rules, the first rule that
is taken for its own is not one of the other, or goes where the next one goes. -/
theorem isolated_iff (l1 l2 : Label) (lines : List Line) :
    Isolated l1 l2 lines ↔ Undisturbed .failover l1 l2 lines ∧ Undisturbed .awg3 l1 l2 lines := by
  constructor
  · intro h
    exact ⟨(detect_eq_iff _ _ _ _).mp h.detectFailover, (detect_eq_iff _ _ _ _).mp h.detectAwg3⟩
  rintro ⟨hFailover, hAwg3⟩
  have hDetect := (detect_eq_iff _ _ _ _).mpr hFailover
  have hDetectAwg3 := (detect_eq_iff _ _ _ _).mpr hAwg3
  exact
    { detectFailover := hDetect
      switchFailover := by
        intro port newIp backendPort
        simp only [planFailoverSwitch, planSwitch, validateFailoverLabel_valid, detectFailoverDestination,
          bind, Except.bind, hDetect]
      teardownFailover := by
        intro port backendPort
        simp only [planFailoverTeardown, planTeardown, validateFailoverLabel_valid, detectFailoverDestination,
          bind, Except.bind, hDetect]
      detectAwg3 := hDetectAwg3
      switchAwg3 := by
        intro newIp
        simp only [planAwg3Switch, validateFailoverLabel_valid, detectAwg3Destination,
          bind, Except.bind, hDetectAwg3]
      teardownAwg3 := by
        simp only [planAwg3Teardown, validateFailoverLabel_valid, detectAwg3Destination,
          bind, Except.bind, hDetectAwg3]
      namesSwitch := names_planFailoverSwitch _ l1
      namesTeardown := names_planFailoverTeardown _ l1
      namesAwg3Switch := names_planAwg3Switch _ l1
      namesAwg3Teardown := names_planAwg3Teardown _ l1 }

def pool1 : Label := ⟨"pool1".toList, by decide⟩

def pool10 : Label := ⟨"pool10".toList, by decide⟩

/-- The rule of the pool `pool10`, as `iptables-save` prints it. -/
def pool10Rule : TaggedLine where
  kind := .failover
  label := pool10
  before := "-A PREROUTING -p udp -m udp --dport 39001 -m comment --comment \"".toList
  after := "\" -j DNAT --to-destination 10.10.10.11:39001".toList
  oneLine := by decide +kernel
  stripped := by decide
  isRule := by decide
  beforeClean := by decide
  afterClean := by decide
  ends := by decide

/-- The rule of `pool10` is taken for one of `pool1`. -/
theorem not_isolated_pool1_pool10 : ¬∀ (l1 l2 : Label) (lines : List Line), l1 ≠ l2 →
    Isolated l1 l2 lines := by
  intro h
  have hDetect := (h pool1 pool10 [.tagged pool10Rule] (by decide)).detectFailover
  exact absurd hDetect (by decide +kernel)

end AdminPanel.Failover

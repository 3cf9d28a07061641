import AdminPanel.Lib.Runs
import Mathlib.Data.List.Perm.Basic

/-!
# Tickets

A list of tickets that are good for one use each, until another list is issued.

* `TicketEvent`, `ticketStep` — the list and what can happen to it;
* `accountOf` — the list that was issued last and what has been used of it;
* `UsedOnce` — tickets of the issued list are used once each, and the others are left;
* `usedOnce_of_exec` — every history of the list is such.
-/

namespace Lib

variable {α : Type}

inductive TicketEvent (α : Type)
  | use (a : α)
  | issue (l : List α)

/-- A ticket that is not in the list cannot be used. -/
def ticketStep [BEq α] [LawfulBEq α] (l : List α) : TicketEvent α → Option (List α)
  | .use a => if a ∈ l then some (l.erase a) else none
  | .issue new => some new

structure Account (α : Type) where
  issued : List α
  used : List α := []

def Account.enter (account : Account α) : TicketEvent α → Account α
  | .use a => { account with used := a :: account.used }
  | .issue l => { issued := l }

/-- The account of a history that begins with the list. -/
def accountOf (l : List α) (history : List (TicketEvent α)) : Account α :=
  history.foldl Account.enter { issued := l }

/-- At any time no ticket has been used twice or without having been issued, and in the end those
that are left are the ones nobody used. -/
structure UsedOnce (l : List α) (history : List (TicketEvent α)) (left : List α) : Prop where
  once : ∀ past, past <+: history → (accountOf l past).used.Nodup
  issued : ∀ past, past <+: history → (accountOf l past).used ⊆ (accountOf l past).issued
  left : ∀ a, a ∈ left ↔
    a ∈ (accountOf l history).issued ∧ a ∉ (accountOf l history).used

/-- Every ticket of the issued list is either used or left. -/
structure Account.Balanced (account : Account α) (left : List α) : Prop where
  nodup : account.issued.Nodup
  perm : account.issued.Perm (account.used ++ left)

variable {account : Account α} {l left : List α} {history past : List (TicketEvent α)}

theorem Account.Balanced.parts (h : account.Balanced left) :
    account.used.Nodup ∧ left.Nodup ∧ ∀ a ∈ account.used, ∀ b ∈ left, a ≠ b :=
  List.nodup_append.mp (h.perm.nodup_iff.mp h.nodup)

theorem Account.Balanced.left_iff (h : account.Balanced left) (a : α) :
    a ∈ left ↔ a ∈ account.issued ∧ a ∉ account.used := by
  rw [h.perm.mem_iff, List.mem_append]
  constructor
  · intro hLeft
    exact ⟨Or.inr hLeft, fun hUsed => h.parts.2.2 a hUsed a hLeft rfl⟩
  · rintro ⟨hUsed | hLeft, hNot⟩
    · exact absurd hUsed hNot
    · exact hLeft

variable [BEq α] [LawfulBEq α]

theorem exec_use {a : α} (h : a ∈ l) (history : List (TicketEvent α)) :
    exec ticketStep l (.use a :: history) = exec ticketStep (l.erase a) history := by
  rw [exec, ticketStep, if_pos h, Option.bind_some]

theorem exec_issue (new : List α) (history : List (TicketEvent α)) :
    exec ticketStep l (.issue new :: history) = exec ticketStep new history := by
  rw [exec, ticketStep, Option.bind_some]

theorem Account.Balanced.step {event : TicketEvent α} {left' : List α} (h : account.Balanced left)
    (hIssue : ∀ new, event = .issue new → new.Nodup) (hStep : ticketStep left event = some left') :
    (account.enter event).Balanced left' := by
  cases event with
  | use a =>
    simp only [ticketStep] at hStep
    split at hStep <;> cases hStep
    next hMem =>
    have hErased : (account.used ++ left).Perm (account.used ++ a :: left.erase a) :=
      (List.perm_cons_erase hMem).append_left _
    exact ⟨h.nodup, (h.perm.trans hErased).trans List.perm_middle⟩
  | issue new =>
    obtain rfl := Option.some.inj hStep
    exact ⟨hIssue new rfl, List.Perm.refl _⟩

theorem balanced_of_exec (h : account.Balanced l) (hIssue : ∀ new, .issue new ∈ history → new.Nodup)
    (hExec : exec ticketStep l history = some left) :
    (history.foldl Account.enter account).Balanced left := by
  induction history generalizing account l with
  | nil => exact Option.some.inj hExec ▸ h
  | cons event rest ih =>
    obtain ⟨mid, hStep, hRest⟩ := exec_cons_iff.mp hExec
    refine ih (h.step ?_ hStep) (fun new hNew => hIssue new (List.mem_cons_of_mem _ hNew)) hRest
    rintro new rfl
    exact hIssue new List.mem_cons_self

/-- Every history of a list of different tickets uses each of them once, if only such lists are
issued. -/
theorem usedOnce_of_exec (hNodup : l.Nodup) (hIssue : ∀ new, .issue new ∈ history → new.Nodup)
    (hExec : exec ticketStep l history = some left) : UsedOnce l history left := by
  have hStart : Account.Balanced { issued := l } l := ⟨hNodup, List.Perm.refl l⟩
  have hPast : ∀ past, past <+: history → ∃ mid, (accountOf l past).Balanced mid := by
    rintro past ⟨rest, rfl⟩
    obtain ⟨mid, hMid, -⟩ := exec_append_iff.mp hExec
    refine ⟨mid, balanced_of_exec hStart (fun new hNew => hIssue new ?_) hMid⟩
    exact List.mem_append_left _ hNew
  refine ⟨?_, ?_, (balanced_of_exec hStart hIssue hExec).left_iff⟩
  · intro past hPrefix
    obtain ⟨mid, hMid⟩ := hPast past hPrefix
    exact hMid.parts.1
  · intro past hPrefix a hUsed
    obtain ⟨mid, hMid⟩ := hPast past hPrefix
    exact hMid.perm.mem_iff.mpr (List.mem_append_left _ hUsed)

end Lib

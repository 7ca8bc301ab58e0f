import Mathlib.Data.List.Basic
import Mathlib.Tactic.Common

/-! Words that are classified by masked comparisons, tried one after another.
Where no word can match two of the patterns the order of the tests is
irrelevant, and a word has the result of any pattern that it matches. -/

structure MaskedPattern (Word Result : Type*) where
  mask : Word
  value : Word
  result : Result
  deriving DecidableEq, Repr

namespace MaskedPattern
variable {Word Result : Type*} [AndOp Word]

def Matches (p : MaskedPattern Word Result) (w : Word) : Prop := w &&& p.mask = p.value

instance [DecidableEq Word] (p : MaskedPattern Word Result) (w : Word) : Decidable (p.Matches w) :=
  inferInstanceAs (Decidable (_ = _))

/-- The values differ on the bits that both masks select. -/
def Exclusive (p q : MaskedPattern Word Result) : Prop := p.value &&& q.mask ≠ q.value &&& p.mask

instance [DecidableEq Word] (p q : MaskedPattern Word Result) : Decidable (p.Exclusive q) :=
  inferInstanceAs (Decidable (_ ≠ _))

theorem Exclusive.symm {p q : MaskedPattern Word Result} (h : p.Exclusive q) : q.Exclusive p :=
  Ne.symm h

/-- The result of the first pattern that matches. -/
def decode [DecidableEq Word] (patterns : List (MaskedPattern Word Result)) (w : Word) :
    Option Result :=
  (patterns.find? fun p => decide (p.Matches w)).map result

theorem decode_eq_none [DecidableEq Word] {patterns : List (MaskedPattern Word Result)} {w : Word}
    (h : ∀ p ∈ patterns, ¬p.Matches w) :
    decode patterns w = none := by
  have hFind : patterns.find? (fun p => decide (p.Matches w)) = none := by
    simpa [List.find?_eq_none] using h
  rw [decode, hFind, Option.map_none]

section Exclusive
variable [Std.Associative (α := Word) (· &&& ·)] [Std.Commutative (α := Word) (· &&& ·)]
  {patterns : List (MaskedPattern Word Result)} {p q : MaskedPattern Word Result} {w : Word}

/-- A word that matches both patterns would agree with both on the shared bits. -/
theorem Exclusive.not_matches (h : p.Exclusive q) (hMatch : p.Matches w) : ¬q.Matches w := by
  intro hOther
  have hMasks : p.mask &&& q.mask = q.mask &&& p.mask := Std.Commutative.comm p.mask q.mask
  apply h
  calc
    p.value &&& q.mask = w &&& p.mask &&& q.mask := by rw [hMatch]
    _ = w &&& (p.mask &&& q.mask) := Std.Associative.assoc w p.mask q.mask
    _ = w &&& (q.mask &&& p.mask) := by rw [hMasks]
    _ = w &&& q.mask &&& p.mask := (Std.Associative.assoc w q.mask p.mask).symm
    _ = q.value &&& p.mask := by rw [hOther]

variable [DecidableEq Word]

theorem countP_matches_le_one (h : patterns.Pairwise Exclusive) (w : Word) :
    patterns.countP (fun p => decide (p.Matches w)) ≤ 1 := by
  induction h with
  | nil => simp
  | @cons p patterns hFirst hRest ih =>
      by_cases hMatch : p.Matches w
      · have hNone : patterns.countP (fun p => decide (p.Matches w)) = 0 := by
          rw [List.countP_eq_zero]
          intro q hMem
          simpa using (hFirst q hMem).not_matches hMatch
        simp [hMatch, hNone]
      · simpa [hMatch] using ih

/-- Among exclusive patterns any match is the first match. -/
theorem decode_eq_some (h : patterns.Pairwise Exclusive) (hMem : p ∈ patterns)
    (hMatch : p.Matches w) : decode patterns w = some p.result := by
  induction h with
  | nil => cases hMem
  | @cons q patterns hFirst hRest ih =>
      rcases List.mem_cons.mp hMem with rfl | hTail
      · simp [decode, hMatch]
      · have hSkip : ¬q.Matches w := fun hOther =>
          (hFirst p hTail).not_matches hOther hMatch
        have hDecode : decode (q :: patterns) w = decode patterns w := by simp [decode, hSkip]
        rw [hDecode]
        exact ih hTail

/-- The order of exclusive patterns does not matter. -/
theorem decode_perm {order : List (MaskedPattern Word Result)} (hPerm : order.Perm patterns)
    (h : patterns.Pairwise Exclusive) (w : Word) : decode order w = decode patterns w := by
  by_cases hSome : ∃ p ∈ patterns, p.Matches w
  · obtain ⟨p, hMem, hMatch⟩ := hSome
    have hOrder : order.Pairwise Exclusive := h.perm hPerm.symm Exclusive.symm
    rw [decode_eq_some h hMem hMatch, decode_eq_some hOrder (hPerm.mem_iff.mpr hMem) hMatch]
  · have hNone : ∀ p ∈ patterns, ¬p.Matches w := fun p hMem hMatch => hSome ⟨p, hMem, hMatch⟩
    have hOther : ∀ p ∈ order, ¬p.Matches w := fun p hMem => hNone p (hPerm.mem_iff.mp hMem)
    rw [decode_eq_none hNone, decode_eq_none hOther]

end Exclusive

end MaskedPattern

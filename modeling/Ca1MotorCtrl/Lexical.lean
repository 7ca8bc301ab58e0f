import Mathlib.Data.List.DropRight
import Mathlib.Data.List.TakeWhile
import Mathlib.Tactic.IntervalCases

/-! Texts as lists of characters: their words, and the positional numerals that they
start with. -/
namespace Lexical

section Words
variable {α : Type} (isSpace : α → Bool)

/-- The pieces between the separators, without the empty ones. -/
def words (text : List α) : List (List α) :=
  (text.splitOnP isSpace).filter fun word => !word.isEmpty

/-- A text without the separators at its ends. -/
def trim (text : List α) : List α := (text.dropWhile isSpace).rdropWhile isSpace

variable {isSpace}

theorem words_nil : words isSpace [] = [] := rfl

theorem words_append_cons (first rest : List α) {space : α} (hSpace : isSpace space) :
    words isSpace (first ++ space :: rest) = words isSpace first ++ words isSpace rest := by
  rw [words, List.splitOnP_append_cons first rest hSpace, List.filter_append]
  rfl

theorem words_of_forall {word : List α} (hNonempty : word ≠ [])
    (hWord : ∀ c ∈ word, isSpace c = false) : words isSpace word = [word] := by
  rw [words, List.splitOnP_eq_singleton hWord, List.filter_cons_of_pos, List.filter_nil]
  rw [List.isEmpty_eq_false_iff.mpr hNonempty]
  rfl

theorem words_space_append {gap : List α} (hGap : ∀ c ∈ gap, isSpace c) (rest : List α) :
    words isSpace (gap ++ rest) = words isSpace rest := by
  induction gap with
  | nil => rfl
  | cons space gap ih =>
      rw [List.forall_mem_cons] at hGap
      rw [← ih hGap.2, ← List.nil_append (space :: gap ++ rest), List.cons_append,
        words_append_cons [] _ hGap.1, words_nil, List.nil_append]

theorem words_append_space {gap : List α} (hGap : ∀ c ∈ gap, isSpace c) (first : List α) :
    words isSpace (first ++ gap) = words isSpace first := by
  cases gap with
  | nil => rw [List.append_nil]
  | cons space gap =>
      rw [List.forall_mem_cons] at hGap
      have hRest := words_space_append hGap.2 []
      rw [List.append_nil, words_nil] at hRest
      rw [words_append_cons first gap hGap.1, hRest, List.append_nil]

/-- A word in front of a gap. -/
theorem words_append_gap {word gap : List α} (hNonempty : word ≠ [])
    (hWord : ∀ c ∈ word, isSpace c = false) (hGap : gap ≠ []) (hSpace : ∀ c ∈ gap, isSpace c)
    (rest : List α) : words isSpace (word ++ (gap ++ rest)) = word :: words isSpace rest := by
  obtain ⟨space, gap, rfl⟩ := List.exists_cons_of_ne_nil hGap
  rw [List.forall_mem_cons] at hSpace
  rw [List.cons_append, words_append_cons word _ hSpace.1, words_of_forall hNonempty hWord,
    words_space_append hSpace.2]
  rfl

/-- What `trim` takes away. -/
theorem eq_append_trim (isSpace : α → Bool) (text : List α) :
    ∃ lead trail, (∀ c ∈ lead, isSpace c) ∧ (∀ c ∈ trail, isSpace c) ∧
      text = lead ++ (trim isSpace text ++ trail) := by
  refine ⟨text.takeWhile isSpace, (text.dropWhile isSpace).rtakeWhile isSpace,
    fun c => List.mem_takeWhile_imp, fun c => List.mem_rtakeWhile_imp, ?_⟩
  have hTrail : trim isSpace text ++ (text.dropWhile isSpace).rtakeWhile isSpace =
      text.dropWhile isSpace := by
    rw [trim, List.rdropWhile, List.rtakeWhile, ← List.reverse_append,
      List.takeWhile_append_dropWhile, List.reverse_reverse]
  rw [hTrail, List.takeWhile_append_dropWhile]

theorem words_trim (text : List α) : words isSpace (trim isSpace text) = words isSpace text := by
  obtain ⟨lead, trail, hLead, hTrail, hText⟩ := eq_append_trim isSpace text
  have hWords := congrArg (words isSpace) hText
  rw [words_space_append hLead, words_append_space hTrail] at hWords
  exact hWords.symm

end Words

section Numerals

/-- The value of a digit; 36 for a character that is none. -/
def digitValue (c : Char) : ℕ :=
  if '0' ≤ c ∧ c ≤ '9' then c.toNat - 48
  else if 'a' ≤ c ∧ c ≤ 'z' then c.toNat - 87
  else if 'A' ≤ c ∧ c ≤ 'Z' then c.toNat - 55
  else 36

def value (radix : ℕ) (digits : List Char) : ℕ :=
  digits.foldl (fun n c => n * radix + digitValue c) 0

/-- The digits that a text starts with. -/
def digitPrefix (radix : ℕ) (text : List Char) : List Char :=
  text.takeWhile fun c => digitValue c < radix

/-- The numeral that a text starts with. -/
def read (radix : ℕ) (text : List Char) : Option ℕ :=
  let digits := digitPrefix radix text
  if digits = [] then none else some (value radix digits)

theorem digitValue_toUpper_digitChar {d : ℕ} (h : d < 16) :
    digitValue d.digitChar.toUpper = d := by
  interval_cases d <;> decide

theorem value_concat (radix : ℕ) (digits : List Char) (c : Char) :
    value radix (digits ++ [c]) = value radix digits * radix + digitValue c := by
  rw [value, List.foldl_append]
  rfl

/-- What the digits of a number are worth, under any spelling of the digits. -/
theorem value_map_toDigits {radix : ℕ} (hTwo : 1 < radix) (spell : Char → Char)
    (hSpell : ∀ d < radix, digitValue (spell d.digitChar) = d) (n : ℕ) :
    value radix ((Nat.toDigits radix n).map spell) = n := by
  induction n using Nat.strong_induction_on with
  | _ n ih =>
      rw [Nat.toDigits_eq_if hTwo]
      split
      next hLess =>
        rw [List.map_singleton, ← List.nil_append [_], value_concat, hSpell n hLess]
        exact (congrArg (· + n) (Nat.zero_mul radix)).trans (Nat.zero_add n)
      next hMore =>
        have hRest := ih (n / radix) (Nat.div_lt_self (by omega) hTwo)
        have hDigit := hSpell (n % radix) (Nat.mod_lt n (by omega))
        rw [List.map_append, List.map_singleton, value_concat, hRest, hDigit, Nat.mul_comm]
        exact Nat.div_add_mod n radix

theorem forall_mem_toDigits {radix : ℕ} (hTwo : 1 < radix) (spell : Char → Char)
    (hSpell : ∀ d < radix, digitValue (spell d.digitChar) = d) (n : ℕ) :
    ∀ c ∈ (Nat.toDigits radix n).map spell, digitValue c < radix := by
  induction n using Nat.strong_induction_on with
  | _ n ih =>
      have hDigit : digitValue (spell (n % radix).digitChar) < radix := by
        rw [hSpell _ (Nat.mod_lt n (by omega))]
        exact Nat.mod_lt n (by omega)
      rw [Nat.toDigits_eq_if hTwo]
      split
      next hLess =>
        rw [Nat.mod_eq_of_lt hLess] at hDigit
        exact fun c hMem => (List.mem_singleton.mp hMem) ▸ hDigit
      next hMore =>
        have hRest := ih (n / radix) (Nat.div_lt_self (by omega) hTwo)
        intro c hMem
        rw [List.map_append, List.mem_append] at hMem
        rcases hMem with hMem | hMem
        · exact hRest c hMem
        · exact (List.mem_singleton.mp hMem) ▸ hDigit

theorem value_replicate_zero_append (radix k : ℕ) (digits : List Char) :
    value radix (List.replicate k '0' ++ digits) = value radix digits := by
  induction k with
  | zero => rfl
  | succ k ih =>
      rw [List.replicate_succ, List.cons_append, ← ih]
      have hZero : 0 * radix + digitValue '0' = 0 := by
        rw [Nat.zero_mul]
        rfl
      rw [value, List.foldl_cons, hZero]
      rfl

theorem forall_mem_replicate_zero_append {radix : ℕ} (hRadix : 0 < radix) (k : ℕ)
    {digits : List Char} (hDigits : ∀ c ∈ digits, digitValue c < radix) :
    ∀ c ∈ List.replicate k '0' ++ digits, digitValue c < radix := by
  intro c hMem
  rcases List.mem_append.mp hMem with hMem | hMem
  · rw [List.eq_of_mem_replicate hMem]
    exact hRadix
  · exact hDigits c hMem

/-- A text of digits is read as a whole. -/
theorem read_of_forall {radix : ℕ} {digits : List Char} (hNonempty : digits ≠ [])
    (hDigits : ∀ c ∈ digits, digitValue c < radix) :
    read radix digits = some (value radix digits) := by
  have hAll : digitPrefix radix digits = digits :=
    List.takeWhile_eq_self_iff.mpr fun c hMem => decide_eq_true (hDigits c hMem)
  simp only [read, hAll, if_neg hNonempty]

end Numerals

end Lexical

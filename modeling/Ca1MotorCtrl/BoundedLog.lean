import Mathlib.Data.List.Nodup
import Mathlib.Tactic.Common

/-! Logs of bounded size that take up the entries they do not know yet and then
forget their oldest ones. Taking up the same entries twice changes nothing if
and only if the entries that both sides share are not pushed out on the way. -/
namespace BoundedLog

variable {Entry : Type*} (capacity : ℕ)

/-- The newest entries, as many as there is room for. -/
def newest (log : List Entry) : List Entry := log.drop (log.length - capacity)

theorem length_newest_le (log : List Entry) : (newest capacity log).length ≤ capacity := by
  rw [newest, List.length_drop]
  omega

theorem newest_of_length_le {log : List Entry} (h : log.length ≤ capacity) :
    newest capacity log = log := by
  rw [newest, Nat.sub_eq_zero_of_le h, List.drop_zero]

theorem newest_suffix (log : List Entry) : newest capacity log <:+ log := List.drop_suffix _ _

/-- Entries forgotten before more are added are forgotten afterwards, too. -/
theorem newest_newest_append (log more : List Entry) :
    newest capacity (newest capacity log ++ more) = newest capacity (log ++ more) := by
  have hOld : log.length - capacity +
      ((log.drop (log.length - capacity) ++ more).length - capacity) =
        (log ++ more).length - capacity := by
    simp only [List.length_append, List.length_drop]
    omega
  have hMore : (log.drop (log.length - capacity) ++ more).length - capacity -
      (log.drop (log.length - capacity)).length = (log ++ more).length - capacity - log.length := by
    simp only [List.length_append, List.length_drop]
    omega
  rw [newest, newest, newest, List.drop_append, List.drop_drop, hOld, hMore, List.drop_append]

/-- Added entries that would be forgotten at once need not be added. -/
theorem newest_append_newest (log more : List Entry) :
    newest capacity (log ++ newest capacity more) = newest capacity (log ++ more) := by
  rcases Nat.le_total more.length capacity with hFits | hLong
  · rw [newest_of_length_le capacity hFits]
  · have hMore : (newest capacity more).length = capacity := by
      rw [newest, List.length_drop]
      omega
    have hOld : log.length ≤ (log ++ more).length - capacity := by
      rw [List.length_append]
      omega
    have hDrop : (log ++ more).length - capacity - log.length = more.length - capacity := by
      rw [List.length_append]
      omega
    calc
      newest capacity (log ++ newest capacity more) = newest capacity more := by
        rw [newest, List.length_append, hMore, Nat.add_sub_cancel, List.drop_left]
      _ = newest capacity (log ++ more) := by
        rw [newest, newest, List.drop_append, List.drop_eq_nil_of_le hOld, List.nil_append, hDrop]

/-- A short addition is kept as a whole. -/
theorem newest_append (log : List Entry) {more : List Entry} (h : more.length ≤ capacity) :
    newest capacity (log ++ more) = log.drop (log.length + more.length - capacity) ++ more := by
  rw [newest, List.length_append, List.drop_append]
  rcases Nat.eq_zero_or_pos (log.length + more.length - capacity - log.length) with hZero | hPos
  · rw [hZero, List.drop_zero]
  · omega

variable [DecidableEq Entry]

/-- The entries that the log lacks, in order and once each. -/
def fresh (known : List Entry) : List Entry → List Entry
  | [] => []
  | entry :: entries =>
      if entry ∈ known then fresh known entries else entry :: fresh (known ++ [entry]) entries

/-- Take up the unknown entries, if any, and forget the oldest. -/
def append (known entries : List Entry) : List Entry :=
  if fresh known entries = [] then known else newest capacity (known ++ fresh known entries)

variable {known entries : List Entry}

theorem length_fresh_le (known entries : List Entry) :
    (fresh known entries).length ≤ entries.length := by
  induction entries generalizing known with
  | nil => exact Nat.le_refl 0
  | cons entry entries ih =>
      rw [fresh]
      split
      · exact Nat.le_succ_of_le (ih known)
      · exact Nat.succ_le_succ (ih _)

theorem mem_append_fresh_iff (known entries : List Entry) (e : Entry) :
    e ∈ known ++ fresh known entries ↔ e ∈ known ∨ e ∈ entries := by
  induction entries generalizing known with
  | nil => simp [fresh]
  | cons entry entries ih =>
      rw [fresh]
      split
      next hKnown =>
        rw [ih, List.mem_cons]
        constructor
        · exact fun h => h.imp_right Or.inr
        · rintro (h | rfl | h)
          · exact Or.inl h
          · exact Or.inl hKnown
          · exact Or.inr h
      next =>
        rw [List.append_cons, ih, List.mem_append, List.mem_singleton, List.mem_cons, or_assoc]

theorem nodup_append_fresh (h : known.Nodup) (entries : List Entry) :
    (known ++ fresh known entries).Nodup := by
  induction entries generalizing known with
  | nil => simpa [fresh] using h
  | cons entry entries ih =>
      rw [fresh]
      split
      · exact ih h
      next hNew =>
        rw [List.append_cons, ← List.concat_eq_append]
        exact ih (h.concat hNew)

theorem fresh_eq_nil_iff : fresh known entries = [] ↔ ∀ e ∈ entries, e ∈ known := by
  induction entries with
  | nil => simp [fresh]
  | cons entry entries ih =>
      rw [fresh, List.forall_mem_cons]
      split
      next hKnown => rw [ih, and_iff_right hKnown]
      next hNew => exact iff_of_false (by simp) (fun h => hNew h.1)

/-- The result is the end of the log and the fresh entries, also if there are none. -/
theorem append_eq_newest (h : known.length ≤ capacity) (entries : List Entry) :
    append capacity known entries = newest capacity (known ++ fresh known entries) := by
  unfold append
  split
  next hNone => rw [hNone, List.append_nil, newest_of_length_le capacity h]
  next => rfl

theorem length_append_le (h : known.length ≤ capacity) (entries : List Entry) :
    (append capacity known entries).length ≤ capacity := by
  rw [append_eq_newest capacity h]
  exact length_newest_le capacity _

theorem nodup_append (h : known.Nodup) (entries : List Entry) :
    (append capacity known entries).Nodup := by
  unfold append
  split
  · exact h
  · exact (nodup_append_fresh h entries).sublist (newest_suffix capacity _).sublist

theorem not_mem_of_mem_fresh (h : known.Nodup) {e : Entry} (hFresh : e ∈ fresh known entries) :
    e ∉ known := by
  intro hKnown
  exact (List.nodup_append.mp (nodup_append_fresh h entries)).2.2 e hKnown e hFresh rfl

/-- The log stays as it is only if it knows all entries. -/
theorem append_eq_self_iff (hNodup : known.Nodup) (hEntries : entries.length ≤ capacity) :
    append capacity known entries = known ↔ ∀ e ∈ entries, e ∈ known := by
  rw [← fresh_eq_nil_iff]
  constructor
  · intro hSame
    by_contra hNone
    obtain ⟨e, hFresh⟩ := List.exists_mem_of_ne_nil _ hNone
    have hLength := Nat.le_trans (length_fresh_le known entries) hEntries
    rw [append, if_neg hNone, newest_append capacity known hLength] at hSame
    apply not_mem_of_mem_fresh hNodup hFresh
    rw [← hSame]
    exact List.mem_append_right _ hFresh
  · intro hNone
    rw [append, if_pos hNone]

theorem mem_drop_iff (hNodup : known.Nodup) {e : Entry} (hMem : e ∈ known) (n : ℕ) :
    e ∈ known.drop n ↔ n ≤ known.idxOf e := by
  rw [← Nat.not_lt, ← List.mem_take_iff_idxOf_lt hMem]
  constructor
  · exact fun hDrop hTake => List.disjoint_take_drop hNodup (Nat.le_refl n) hTake hDrop
  · intro hTake
    rw [← List.take_append_drop n known, List.mem_append] at hMem
    exact hMem.resolve_left hTake

/-- From any shared entry on, the rest of the log and the fresh entries fit. -/
def HasRoom (known entries : List Entry) : Prop :=
  ∀ e ∈ known, e ∈ entries →
    known.length - known.idxOf e + (fresh known entries).length ≤ capacity

/-- When taking up the same entries twice is the same as taking them up once. -/
theorem append_append_eq_iff (hNodup : known.Nodup) (hKnown : known.length ≤ capacity)
    (hEntries : entries.length ≤ capacity) :
    append capacity (append capacity known entries) entries = append capacity known entries ↔
      HasRoom capacity known entries := by
  rw [append_eq_self_iff capacity (nodup_append capacity hNodup entries) hEntries,
    append_eq_newest capacity hKnown,
    newest_append capacity known (Nat.le_trans (length_fresh_le known entries) hEntries)]
  have hEntry (e : Entry) (hMem : e ∈ entries) :
      (e ∈ known.drop (known.length + (fresh known entries).length - capacity) ++
        fresh known entries) ↔ (e ∈ known →
          known.length - known.idxOf e + (fresh known entries).length ≤ capacity) := by
    by_cases hOld : e ∈ known
    · have hIndex := List.idxOf_lt_length_of_mem hOld
      rw [List.mem_append, or_iff_left fun hFresh => not_mem_of_mem_fresh hNodup hFresh hOld,
        mem_drop_iff hNodup hOld]
      constructor
      · intro h _
        omega
      · intro h
        have hFits := h hOld
        omega
    · have hFresh := ((mem_append_fresh_iff known entries e).mpr (Or.inr hMem))
      rw [List.mem_append, or_iff_right hOld] at hFresh
      exact iff_of_true (List.mem_append_right _ hFresh) fun h => absurd h hOld
  constructor
  · intro h e hOld hMem
    exact (hEntry e hMem).mp (h e hMem) hOld
  · intro h e hMem
    exact (hEntry e hMem).mpr fun hOld => h e hOld hMem

theorem fresh_of_disjoint (hNodup : entries.Nodup) (hNew : ∀ e ∈ entries, e ∉ known) :
    fresh known entries = entries := by
  induction entries generalizing known with
  | nil => rfl
  | cons entry entries ih =>
      obtain ⟨hFirst, hRest⟩ := List.forall_mem_cons.mp hNew
      obtain ⟨hAbsent, hDistinct⟩ := List.nodup_cons.mp hNodup
      have hStill : ∀ e ∈ entries, e ∉ known ++ [entry] := by
        intro e hMem hKnown
        rcases List.mem_append.mp hKnown with hOld | hSame
        · exact hRest e hMem hOld
        · exact hAbsent (List.mem_singleton.mp hSame ▸ hMem)
      rw [fresh, if_neg hFirst, ih hDistinct hStill]

theorem fresh_append_of_known {old : List Entry} (hOld : ∀ e ∈ old, e ∈ known)
    (entries : List Entry) : fresh known (old ++ entries) = fresh known entries := by
  induction old with
  | nil => rfl
  | cons entry old ih =>
      obtain ⟨hFirst, hRest⟩ := List.forall_mem_cons.mp hOld
      rw [List.cons_append, fresh, if_pos hFirst, ih hRest]

/-- A log that was up to date is up to date again after it has taken up a window
of entries that do not recur. -/
theorem append_newest {log more : List Entry} (hNodup : (log ++ more).Nodup) :
    append capacity (newest capacity log) (newest capacity (log ++ more)) =
      newest capacity (log ++ more) := by
  obtain ⟨-, hMore, hApart⟩ := List.nodup_append.mp hNodup
  have hWindow : newest capacity (log ++ more) =
      (newest capacity log).drop ((log ++ more).length - capacity - (log.length - capacity)) ++
        newest capacity more := by
    have hOld : log.length - capacity + ((log ++ more).length - capacity -
        (log.length - capacity)) = (log ++ more).length - capacity := by
      rw [List.length_append]
      omega
    have hNew : (log ++ more).length - capacity - log.length = more.length - capacity := by
      rw [List.length_append]
      omega
    rw [newest, newest, newest, List.drop_append, List.drop_drop, hOld, hNew]
  have hFresh : fresh (newest capacity log) (newest capacity (log ++ more)) =
      newest capacity more := by
    rw [hWindow, fresh_append_of_known fun e hMem => List.mem_of_mem_drop hMem]
    refine fresh_of_disjoint (hMore.sublist (newest_suffix capacity more).sublist) ?_
    intro e hMem hKnown
    exact hApart e ((newest_suffix capacity log).mem hKnown) e
      ((newest_suffix capacity more).mem hMem) rfl
  rw [append_eq_newest capacity (length_newest_le capacity log), hFresh, newest_newest_append,
    newest_append_newest]

end BoundedLog

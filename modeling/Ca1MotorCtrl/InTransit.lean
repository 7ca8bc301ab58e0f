import Mathlib.Data.List.Perm.Subperm

/-! Messages on the way that are taken in any order, or get lost. However they overtake
each other, each one that is taken was sent, and none is taken twice. -/
namespace InTransit

variable {Message Part : Type*}

/-- The message that is taken is followed by the rest in some order. -/
theorem toList_append_eraseIdx_perm (messages : List Message) (i : ℕ) :
    (messages[i]?.toList ++ messages.eraseIdx i).Perm messages := by
  by_cases hBound : i < messages.length
  · rw [List.getElem?_eq_getElem hBound]
    exact List.getElem_cons_eraseIdx_perm hBound
  · have hOut : messages.length ≤ i := Nat.le_of_not_lt hBound
    rw [List.getElem?_eq_none hOut, List.eraseIdx_of_length_le hOut]
    exact List.Perm.refl _

/-- At most one message has one order only. -/
theorem eq_of_perm_of_length_le_one {first second : List Message} (h : first.Perm second)
    (hLength : second.length ≤ 1) : first = second := by
  match second with
  | [] => exact List.perm_nil.mp h
  | [_] => exact List.perm_singleton.mp h
  | _ :: _ :: _ => simp at hLength

theorem filterMap_toList (part : Message → Option Part) (message : Option Message) :
    message.toList.filterMap part = (message.bind part).toList := by
  cases message with
  | none => rfl
  | some message => cases hPart : part message <;> simp [hPart]

/-- What was taken and what is on the way was sent, each time on its own. -/
def Accounts (sent taken onWay : List Message) : Prop := (taken ++ onWay).Subperm sent

variable {sent taken onWay : List Message}

theorem Accounts.start : Accounts ([] : List Message) [] [] := List.Subperm.refl []

/-- What leaves and what stays was on the way before or is new. -/
theorem Accounts.step (h : Accounts sent taken onWay) {leaving staying new : List Message}
    (hStep : (leaving ++ staying).Subperm (onWay ++ new)) :
    Accounts (sent ++ new) (taken ++ leaving) staying := by
  have hAll := (List.subperm_append_left taken).mpr hStep
  rw [← List.append_assoc, ← List.append_assoc] at hAll
  exact hAll.trans ((List.subperm_append_right new).mpr h)

theorem Accounts.taken_subperm (h : Accounts sent taken onWay) : taken.Subperm sent :=
  (List.sublist_append_left taken onWay).subperm.trans h

end InTransit

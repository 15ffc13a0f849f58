import Mathlib.Data.List.Nodup
import Mathlib.Tactic.Common

/-!
Lists of records with a key. Where keys are distinct, an update at the position of
the first record with a key is an update of all records with that key.
-/

namespace Keyed

variable {α κ : Type}

theorem findIdx?_some {p : α → Bool} {l : List α} {i : Nat} (h : l.findIdx? p = some i) :
    ∃ a, l[i]? = some a ∧ l.find? p = some a ∧ p a := by
  induction l generalizing i with
  | nil => simp at h
  | cons x l ih =>
      rw [List.findIdx?_cons] at h
      by_cases hx : p x
      · simp only [hx, if_true, Option.some.injEq] at h
        subst h
        exact ⟨x, rfl, by simp [hx], hx⟩
      · simp only [hx, Bool.false_eq_true, if_false] at h
        cases hi : l.findIdx? p with
        | none => simp [hi] at h
        | some j =>
            simp only [hi, Option.map_some, Option.some.injEq] at h
            subst h
            obtain ⟨a, ha, hf, hp⟩ := ih hi
            exact ⟨a, by simpa using ha, by simp [hx, hf], hp⟩

theorem findIdx?_none {p : α → Bool} {l : List α} (h : l.findIdx? p = none) :
    l.find? p = none := by
  rw [List.findIdx?_eq_none_iff] at h
  exact List.find?_eq_none.mpr fun a ha => by simp [h a ha]

theorem map_eq_self_of_key (key : α → κ) [DecidableEq κ] {l : List α} {k : κ}
    (h : k ∉ l.map key) (f : α → α) :
    (l.map fun a => if key a = k then f a else a) = l := by
  rw [List.map_congr_left (g := id), List.map_id]
  intro a ha
  rw [if_neg]
  · rfl
  · exact fun he => h (he ▸ List.mem_map_of_mem ha)

theorem modify_eq_map (key : α → κ) [DecidableEq κ] {l : List α} {i : Nat} {a : α}
    (hn : (l.map key).Nodup) (ha : l[i]? = some a) (f : α → α) :
    l.modify i f = l.map fun b => if key b = key a then f b else b := by
  induction l generalizing i with
  | nil => simp at ha
  | cons x l ih =>
      rw [List.map_cons, List.nodup_cons] at hn
      cases i with
      | zero =>
          simp only [List.getElem?_cons_zero, Option.some.injEq] at ha
          subst ha
          rw [List.modify_zero_cons, List.map_cons, if_pos rfl, map_eq_self_of_key key hn.1]
      | succ i =>
          simp only [List.getElem?_cons_succ] at ha
          have hx : key x ≠ key a := fun he =>
            hn.1 (he ▸ List.mem_map_of_mem (List.mem_of_getElem? ha))
          rw [List.modify_succ_cons, List.map_cons, if_neg hx, ih hn.2 ha]

/-- A view of the records under which an update is one of the view. -/
theorem map_modify {β : Type} {g : α → β} {f : α → α} {f' : β → β} {l : List α} {i : Nat}
    (h : ∀ a, g (f a) = f' (g a)) : (l.modify i f).map g = (l.map g).modify i f' := by
  apply List.ext_getElem?
  intro j
  simp only [List.getElem?_map, List.getElem?_modify]
  cases l[j]? with
  | none => rfl
  | some a =>
      by_cases hj : i = j
      · simp [hj, h]
      · simp [hj]

theorem map_modify_self {β : Type} {g : α → β} {f : α → α} {l : List α} {i : Nat}
    (h : ∀ a, g (f a) = g a) : (l.modify i f).map g = l.map g :=
  (@map_modify α β g f id l i h).trans (List.modify_id _ _)

theorem mem_modify {f : α → α} {l : List α} {i : Nat} {b : α} (h : b ∈ l.modify i f) :
    b ∈ l ∨ ∃ a, l[i]? = some a ∧ b = f a := by
  obtain ⟨j, hj⟩ := List.mem_iff_getElem?.mp h
  rw [List.getElem?_modify] at hj
  obtain ⟨a, ha, rfl⟩ := Option.map_eq_some_iff.mp hj
  by_cases hi : i = j
  · subst hi
    exact .inr ⟨a, ha, if_pos rfl⟩
  · rw [if_neg hi]
    exact .inl (List.mem_of_getElem? ha)

theorem eraseIdx_eq_filter (key : α → κ) [DecidableEq κ] {l : List α} {i : Nat} {a : α}
    (hn : (l.map key).Nodup) (ha : l[i]? = some a) :
    l.eraseIdx i = l.filter fun b => key b ≠ key a := by
  induction l generalizing i with
  | nil => simp at ha
  | cons x l ih =>
      rw [List.map_cons, List.nodup_cons] at hn
      cases i with
      | zero =>
          simp only [List.getElem?_cons_zero, Option.some.injEq] at ha
          subst ha
          rw [List.eraseIdx_cons_zero, List.filter_cons_of_neg (by simp), eq_comm,
            List.filter_eq_self]
          intro b hb
          simpa using fun he : key b = key x => hn.1 (he ▸ List.mem_map_of_mem hb)
      | succ i =>
          simp only [List.getElem?_cons_succ] at ha
          have hx : key x ≠ key a := fun he =>
            hn.1 (he ▸ List.mem_map_of_mem (List.mem_of_getElem? ha))
          rw [List.eraseIdx_cons_succ, List.filter_cons_of_pos (by simpa using hx), ih hn.2 ha]

theorem eq_of_key_eq (key : α → κ) {l : List α} (hn : (l.map key).Nodup) {a b : α}
    (ha : a ∈ l) (hb : b ∈ l) (h : key a = key b) : a = b :=
  List.inj_on_of_nodup_map hn ha hb h

theorem find?_of_mem (key : α → κ) [DecidableEq κ] {l : List α} (hn : (l.map key).Nodup)
    {a : α} (ha : a ∈ l) : l.find? (fun b => key b = key a) = some a := by
  cases h : l.find? (fun b => key b = key a) with
  | none =>
      have := List.find?_eq_none.mp h a ha
      simp at this
  | some b =>
      have hb := List.mem_of_find?_eq_some h
      have hk : key b = key a := by simpa using List.find?_some h
      rw [eq_of_key_eq key hn hb ha hk]

theorem find?_map (key : α → κ) [DecidableEq κ] {g : α → α} (hg : ∀ a, key (g a) = key a)
    (l : List α) (k : κ) :
    (l.map g).find? (fun a => key a = k) = (l.find? fun a => key a = k).map g := by
  rw [List.find?_map]
  congr 1
  apply congrArg (fun p => List.find? p l)
  funext a
  simp [hg]

theorem find?_filter (key : α → κ) [DecidableEq κ] (l : List α) (k k' : κ) :
    (l.filter fun a => key a ≠ k').find? (fun a => key a = k) =
      if k = k' then none else l.find? fun a => key a = k := by
  rw [List.find?_filter]
  split
  · rename_i h
    rw [List.find?_eq_none]
    intro a _
    simp [h]
  · rename_i h
    apply congrArg (fun p => List.find? p l)
    funext a
    by_cases ha : key a = k
    · simp [ha, h]
    · simp [ha]

theorem find?_of_notMem (key : α → κ) [DecidableEq κ] {l : List α} {k : κ}
    (h : k ∉ l.map key) : l.find? (fun a => key a = k) = none := by
  rw [List.find?_eq_none]
  intro a ha
  simpa using fun he : key a = k => h (he ▸ List.mem_map_of_mem ha)

theorem filter_of_mem (key : α → κ) [DecidableEq κ] {l : List α} (hn : (l.map key).Nodup)
    {a : α} (ha : a ∈ l) : l.filter (fun b => key b = key a) = [a] := by
  induction l with
  | nil => cases ha
  | cons x l ih =>
      rw [List.map_cons, List.nodup_cons] at hn
      rcases List.mem_cons.mp ha with rfl | ha
      · rw [List.filter_cons_of_pos (by simp), List.cons.injEq, List.filter_eq_nil_iff]
        refine ⟨rfl, fun b hb => ?_⟩
        simpa using fun he : key b = key a => hn.1 (he ▸ List.mem_map_of_mem hb)
      · have hx : key x ≠ key a := fun he => hn.1 (he ▸ List.mem_map_of_mem ha)
        rw [List.filter_cons_of_neg (by simpa using hx)]
        exact ih hn.2 ha

end Keyed

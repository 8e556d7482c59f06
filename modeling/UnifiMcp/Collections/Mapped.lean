import Mathlib.Data.List.Forall2

/-!
# Mapping a list with a function that may fail

`mapM` in `Except` succeeds when the function does on every item, and then with what it gives
on each (`mapM_eq_ok`).  So what holds of the items one by one carries over to parts of the
list and to further maps.  `forM` is the same for a function that only checks.
-/

namespace Collections

variable {α β ε : Type}

theorem bind_eq_ok {x : Except ε α} {f : α → Except ε β} {b : β} :
    x >>= f = .ok b ↔ ∃ a, x = .ok a ∧ f a = .ok b := by
  cases x with
  | ok a => exact ⟨fun h => ⟨a, rfl, h⟩, fun ⟨_, ha, h⟩ => Except.ok.inj ha ▸ h⟩
  | error e => exact ⟨nofun, fun ⟨_, ha, _⟩ => nomatch ha⟩

theorem map_eq_ok {x : Except ε α} {f : α → β} {b : β} :
    x.map f = .ok b ↔ ∃ a, x = .ok a ∧ f a = b := by
  cases x with
  | error e => exact ⟨nofun, fun ⟨_, h, _⟩ => nomatch h⟩
  | ok a =>
      exact ⟨fun h => ⟨a, rfl, Except.ok.inj h⟩,
        fun ⟨_, ha, h⟩ => Except.ok.inj ha ▸ congrArg Except.ok h⟩

theorem forM_eq_ok {f : α → Except ε PUnit} {xs : List α} :
    xs.forM f = .ok () ↔ ∀ x ∈ xs, f x = .ok () := by
  induction xs with
  | nil => exact ⟨fun _ _ hx => (nomatch hx), fun _ => rfl⟩
  | cons x xs ih =>
      have hcons : (x :: xs).forM f = f x >>= fun _ => xs.forM f := rfl
      rw [hcons, bind_eq_ok, List.forall_mem_cons]
      exact ⟨fun ⟨_, hx, hxs⟩ => ⟨hx, ih.1 hxs⟩, fun ⟨hx, hxs⟩ => ⟨_, hx, ih.2 hxs⟩⟩

theorem mapM_eq_ok {f : α → Except ε β} {xs : List α} {ys : List β} :
    xs.mapM f = .ok ys ↔ List.Forall₂ (fun x y => f x = .ok y) xs ys := by
  induction xs generalizing ys with
  | nil =>
      rw [List.mapM_nil, List.forall₂_nil_left_iff]
      exact ⟨fun h => (Except.ok.inj h).symm, fun h => h ▸ rfl⟩
  | cons x xs ih =>
      rw [List.mapM_cons, List.forall₂_cons_left_iff, bind_eq_ok]
      simp only [bind_eq_ok, ih]
      constructor
      · rintro ⟨y, hy, ys', hys, heq⟩
        exact ⟨y, ys', hy, hys, (Except.ok.inj heq).symm⟩
      · rintro ⟨y, ys', hy, hys, rfl⟩
        exact ⟨y, hy, ys', hys, rfl⟩

/-- What a traversal gives, it gives for one of the items. -/
theorem exists_of_mem_mapM {f : α → Except ε β} {xs : List α} {ys : List β}
    (h : xs.mapM f = .ok ys) {y : β} (hy : y ∈ ys) : ∃ x ∈ xs, f x = .ok y := by
  rw [mapM_eq_ok] at h
  induction h with
  | nil => cases hy
  | @cons x _ _ _ hx _ ih =>
      rcases List.mem_cons.1 hy with rfl | hrest
      · exact ⟨x, List.mem_cons_self, hx⟩
      · obtain ⟨x', hmem, hx'⟩ := ih hrest
        exact ⟨x', List.mem_cons_of_mem _ hmem, hx'⟩

/-- What is read from each item is read from a part of them. -/
theorem mapM_window {f : α → Except ε β} {xs : List α} {ys : List β} (h : xs.mapM f = .ok ys)
    (m n : Nat) : ((xs.drop m).take n).mapM f = .ok ((ys.drop m).take n) :=
  mapM_eq_ok.2 (List.forall₂_take n (List.forall₂_drop m (mapM_eq_ok.1 h)))

theorem mapM_map_ok {γ : Type} {f : α → Except ε β} {g : β → γ} (xs : List α) :
    (xs.mapM fun x => (f x).map g) = (xs.mapM f).map (List.map g) := by
  induction xs with
  | nil => rfl
  | cons x xs ih =>
      rw [List.mapM_cons, List.mapM_cons, ih]
      cases f x with
      | error e => rfl
      | ok y =>
          cases xs.mapM f with
          | error e => rfl
          | ok ys => rfl

theorem mapM_ok (f : α → β) (xs : List α) :
    (xs.mapM fun x => (.ok (f x) : Except ε β)) = .ok (xs.map f) :=
  mapM_eq_ok.2 (List.forall₂_map_right_iff.2 (List.forall₂_same.2 fun _ _ => rfl))

/-- Lists on whose items the function comes to the same are mapped to the same. -/
theorem mapM_eq_of_forall₂ {f : α → Except ε β} {xs xs' : List α}
    (h : List.Forall₂ (fun x x' => f x = f x') xs xs') : xs.mapM f = xs'.mapM f := by
  induction h with
  | nil => rfl
  | cons hx _ ih => rw [List.mapM_cons, List.mapM_cons, hx, ih]

/-- Related lists stay related when a test that does not tell related items apart is made. -/
theorem forall₂_filter {R : α → α → Prop} {p : α → Bool} (hp : ∀ x x', R x x' → p x = p x')
    {xs xs' : List α} (h : List.Forall₂ R xs xs') :
    List.Forall₂ R (xs.filter p) (xs'.filter p) := by
  induction h with
  | nil => exact .nil
  | @cons x x' xs xs' hx _ ih =>
      by_cases hpx : p x = true
      · rw [List.filter_cons_of_pos hpx, List.filter_cons_of_pos (hp x x' hx ▸ hpx)]
        exact .cons hx ih
      · rw [List.filter_cons_of_neg hpx, List.filter_cons_of_neg (hp x x' hx ▸ hpx)]
        exact ih

end Collections

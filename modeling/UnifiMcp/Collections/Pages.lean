import Mathlib.Data.List.Forall2
import Mathlib.Tactic.Common

/-!
# Reading a list page by page

A reader asks for the page at position 0, then for the one `size` further on, and so on up
to the first page that is shorter than `size`; each answer may change the state the next
one is given in.  When every page is the window of one list, what is read is that list
(`readPages_windows`), with no item lost or repeated.  `readPages_related` says the same of
pages whose items stand for those of the windows, one by one.
-/

namespace Collections

variable {α ε σ : Type}

/-- Read the pages from a position on, up to the first short one.  There is no result when
the pages that may be asked for run out before. -/
def readPages (fetch : Nat → σ → Except ε (List α) × σ) (size : Nat) :
    Nat → Nat → σ → Option (Except ε (List α))
  | 0, _, _ => none
  | pages + 1, position, s =>
      match fetch position s with
      | (.error e, _) => some (.error e)
      | (.ok items, s') =>
          if items.length < size then some (.ok items)
          else
            (readPages fetch size pages (position + size) s').map fun rest =>
              rest.map fun rest => items ++ rest

variable {fetch : Nat → σ → Except ε (List α) × σ} {size pages position : Nat} {s : σ}

theorem readPages_succ {items : List α} {s' : σ} (h : fetch position s = (.ok items, s')) :
    readPages fetch size (pages + 1) position s =
      if items.length < size then some (.ok items)
      else
        (readPages fetch size pages (position + size) s').map fun rest =>
          rest.map fun rest => items ++ rest := by
  rw [readPages, h]

/-- Pages whose items are related one by one to those of the windows of a list are read to items
related to those of the list. -/
theorem readPages_related {β : Type} {R : β → α → Prop} {all : List β} {I : σ → Prop}
    (hfetch : ∀ k s, I s → k * size ≤ all.length → ∃ items s', I s' ∧
      fetch (k * size) s = (.ok items, s') ∧
        List.Forall₂ R ((all.drop (k * size)).take size) items)
    {k : Nat} (hk : k * size ≤ all.length) (hpages : all.length < (k + pages) * size)
    (hs : I s) : ∃ shown, readPages fetch size pages (k * size) s = some (.ok shown) ∧
      List.Forall₂ R (all.drop (k * size)) shown := by
  induction pages generalizing k s with
  | zero => exact absurd hk (Nat.not_le.2 hpages)
  | succ pages ih =>
      obtain ⟨items, s', hs', hpage, hitems⟩ := hfetch k s hs hk
      have hlength := hitems.length_eq
      rw [List.length_take] at hlength
      rw [readPages_succ hpage]
      by_cases hshort : items.length < size
      · -- a page that is short of items is the rest of the list
        rw [if_pos hshort]
        rw [List.take_of_length_le (by omega)] at hitems
        exact ⟨items, rfl, hitems⟩
      · rw [if_neg hshort]
        have hnext : (k + 1) * size ≤ all.length := by
          rw [List.length_drop] at hlength
          rw [Nat.add_mul, Nat.one_mul]
          omega
        have hpages' : all.length < (k + 1 + pages) * size := by
          rwa [Nat.add_assoc, Nat.add_comm 1]
        obtain ⟨rest, hread, hrest⟩ := ih hnext hpages' hs'
        rw [Nat.add_mul, Nat.one_mul] at hread hrest
        rw [← List.drop_drop] at hrest
        refine ⟨items ++ rest, by rw [hread]; rfl, ?_⟩
        have hboth : List.Forall₂ R ((all.drop (k * size)).take size ++
            (all.drop (k * size)).drop size) (items ++ rest) := List.rel_append hitems hrest
        rwa [List.take_append_drop] at hboth

/-- Windows of one list are read to the end of the list. -/
theorem readPages_windows {all : List α} {I : σ → Prop}
    (hfetch : ∀ k s, I s → k * size ≤ all.length → ∃ s', I s' ∧
      fetch (k * size) s = (.ok ((all.drop (k * size)).take size), s'))
    {k : Nat} (hk : k * size ≤ all.length) (hpages : all.length < (k + pages) * size)
    (hs : I s) : readPages fetch size pages (k * size) s = some (.ok (all.drop (k * size))) := by
  have hsame : ∀ k s, I s → k * size ≤ all.length → ∃ items s', I s' ∧
      fetch (k * size) s = (.ok items, s') ∧
        List.Forall₂ Eq ((all.drop (k * size)).take size) items := by
    intro k s hs hk
    obtain ⟨s', hs', hpage⟩ := hfetch k s hs hk
    exact ⟨_, s', hs', hpage, List.forall₂_eq_eq_eq ▸ rfl⟩
  obtain ⟨shown, hread, hshown⟩ := readPages_related hsame hk hpages hs
  rw [List.forall₂_eq_eq_eq] at hshown
  rw [hread, hshown]

end Collections

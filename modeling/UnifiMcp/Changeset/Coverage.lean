import UnifiMcp.Changeset.Checks
import UnifiMcp.Changeset.Validate

/-!
# Which plans a pre-image covers

The stale check of an apply refuses a plan that updates or deletes a resource the pre-image
has no entry for.  Local validation asks that of updates only, since `Preimage.covers` passes
every delete.  So the two agree on a plan exactly when its deletes have entries or an update
has none (`coverageAgrees_iff`).
-/

namespace UnifiMcp

open Interaction

/-- The pre-image has an entry for every resource the plan updates or deletes. -/
def HasEntries (preimage : Preimage) (mutations : List StagedMutation) : Prop :=
  ∀ m ∈ mutations, ∀ id ∈ m.resourceId, (preimage.getResource id).isSome

/-- The stale check finds the plan unchanged on some answers of the controller. -/
def PassesAtApply (preimage : Preimage) (mutations : List StagedMutation) : Prop :=
  ∃ t, (preimageMatches preimage mutations).Gives t (.ok true)

/-- The stale check refuses the plan for an entry that is missing: it refuses, though whatever it
read is as it was recorded. -/
def RefusedUncovered (preimage : Preimage) (mutations : List StagedMutation) : Prop :=
  ∃ t, (preimageMatches preimage mutations).Gives t (.ok false) ∧
    ∀ e ∈ t, ∃ recorded, preimage.getResource e.op.id = some recorded ∧
      e = readEvent e.op (some recorded)

section HasEntries

variable {preimage : Preimage} {mutations rest : List StagedMutation} {m : StagedMutation}

theorem hasEntries_cons : HasEntries preimage (m :: rest) ↔
    (∀ id ∈ m.resourceId, (preimage.getResource id).isSome) ∧ HasEntries preimage rest :=
  List.forall_mem_cons

/-- Local validation accepts a plan when each of its mutations is let through. -/
theorem validateLocally_eq_ok :
    validateLocally preimage mutations = .ok () ↔ ∀ m ∈ mutations, preimage.covers m = true := by
  induction mutations with
  | nil => simp [validateLocally]
  | cons m rest ih =>
      rw [validateLocally, List.forall_mem_cons]
      split_ifs with h
      · rw [ih]
        exact (and_iff_right h).symm
      · simp [h]

/-- The stale check passes a plan that is covered, and no other. -/
theorem passesAtApply_iff : PassesAtApply preimage mutations ↔ HasEntries preimage mutations := by
  unfold PassesAtApply
  simp only [gives_preimageMatches_true]
  constructor
  · rintro ⟨t, ht⟩ m hm id hid
    rw [m.resourceId_eq_target, Option.mem_def, Option.map_eq_some_iff] at hid
    obtain ⟨⟨kind, id'⟩, htarget, rfl⟩ := hid
    obtain ⟨v, hv, -⟩ := ht.getResource hm htarget
    exact Option.isSome_of_eq_some hv
  · intro h
    obtain ⟨t, ht, -⟩ := exists_matches preimage fun m hm kind id htarget =>
      h m hm id (by rw [m.resourceId_eq_target, htarget]; rfl)
    exact ⟨t, ht⟩

/-- A plan is refused for a missing entry exactly when it is not covered. -/
theorem refusedUncovered_iff :
    RefusedUncovered preimage mutations ↔ ¬ HasEntries preimage mutations := by
  induction mutations with
  | nil =>
      refine iff_of_false ?_ (not_not.2 nofun)
      rintro ⟨t, ht, -⟩
      cases (Fallible.gives_pure.1 ht).2
  | cons m rest ih =>
      rw [hasEntries_cons, not_and]
      cases htarget : m.target with
      | none =>
          have hid : ∀ id ∈ m.resourceId, (preimage.getResource id).isSome := by
            rw [m.resourceId_eq_target, htarget]
            exact nofun
          unfold RefusedUncovered at ih ⊢
          rw [preimageMatches_none htarget, ih]
          exact ⟨fun hrest _ => hrest, fun hrest => hrest hid⟩
      | some target =>
          obtain ⟨kind, id⟩ := target
          have hid : (∀ id' ∈ m.resourceId, (preimage.getResource id').isSome) ↔
              (preimage.getResource id).isSome := by
            rw [m.resourceId_eq_target, htarget]
            simp
          rw [hid]
          unfold RefusedUncovered
          simp only [gives_preimageMatches_target htarget]
          cases hget : preimage.getResource id with
          | none => exact iff_of_true ⟨[], ⟨rfl, trivial⟩, nofun⟩ nofun
          | some recorded =>
              rw [Option.isSome_some, forall_prop_of_true rfl, ← ih]
              constructor
              · rintro ⟨t, ⟨ans, tail, rfl, hrest⟩, hreads⟩
                obtain ⟨⟨recorded', hget', hans⟩, htail⟩ := List.forall_mem_cons.1 hreads
                obtain rfl : recorded = recorded' := Option.some.inj (hget.symm.trans hget')
                cases hans
                dsimp only at hrest
                rw [if_pos rfl] at hrest
                exact ⟨tail, hrest, htail⟩
              · rintro ⟨tail, hrest, htail⟩
                refine ⟨_, ⟨.ok (some recorded), tail, rfl, ?_⟩,
                  List.forall_mem_cons.2 ⟨⟨recorded, hget, rfl⟩, htail⟩⟩
                dsimp only
                rwa [if_pos rfl]

end HasEntries

/-! ## Where local validation and apply agree -/

/-- Local validation accepts the plan exactly when it is covered, and that is what the stale
check asks of it at apply. -/
structure CoverageAgrees (preimage : Preimage) (mutations : List StagedMutation) : Prop where
  validated : validateLocally preimage mutations = .ok () ↔ HasEntries preimage mutations
  passes : HasEntries preimage mutations ↔ PassesAtApply preimage mutations
  refused : ¬ HasEntries preimage mutations ↔ RefusedUncovered preimage mutations

/-- **When local validation and apply agree on a plan.**  They do exactly when every delete of the
plan has an entry in the pre-image, or some update has none. -/
theorem coverageAgrees_iff (preimage : Preimage) (mutations : List StagedMutation) :
    CoverageAgrees preimage mutations ↔
      (∀ kind id, .delete kind id ∈ mutations → (preimage.getResource id).isSome) ∨
        ∃ kind id body, .update kind id body ∈ mutations ∧ preimage.getResource id = none := by
  have hagrees : CoverageAgrees preimage mutations ↔
      (validateLocally preimage mutations = .ok () → HasEntries preimage mutations) := by
    constructor
    · exact fun h => h.validated.1
    · refine fun h => ⟨⟨h, fun hcovered => ?_⟩, passesAtApply_iff.symm, refusedUncovered_iff.symm⟩
      rw [validateLocally_eq_ok]
      intro m hm
      cases m with
      | create kind body | delete kind id | restore backupId => rfl
      | update kind id body =>
          exact (preimage.covers_update_iff kind id body).2 (hcovered _ hm id rfl)
  rw [hagrees, validateLocally_eq_ok]
  constructor
  · intro h
    by_cases hupdates : ∀ m ∈ mutations, preimage.covers m = true
    · exact .inl fun kind id hmem => h hupdates _ hmem id rfl
    · push Not at hupdates
      obtain ⟨m, hm, hnot⟩ := hupdates
      cases m with
      | create kind body | delete kind id | restore backupId => exact absurd rfl hnot
      | update kind id body =>
          rw [ne_eq, preimage.covers_update_iff, Option.not_isSome_iff_eq_none] at hnot
          exact .inr ⟨kind, id, body, hm, hnot⟩
  · rintro (hdeletes | ⟨kind, id, body, hm, hnone⟩) hcovers m hmem id' hid
    · cases m with
      | create kind body | restore backupId => cases hid
      | update kind id body =>
          cases hid
          exact (preimage.covers_update_iff kind id' body).1 (hcovers _ hmem)
      | delete kind id =>
          cases hid
          exact hdeletes kind id' hmem
    · have hsome := (preimage.covers_update_iff kind id body).1 (hcovers _ hm)
      rw [hnone] at hsome
      cases hsome

/-- The delete of a zone that was not captured is validated, and refused at apply. -/
theorem not_coverageAgrees_delete :
    validateLocally (.fromResources []) [.delete "firewall_zone" "z1"] = .ok () ∧
      ¬ HasEntries (.fromResources []) [.delete "firewall_zone" "z1"] ∧
      RefusedUncovered (.fromResources []) [.delete "firewall_zone" "z1"] := by
  have hnot : ¬ HasEntries (.fromResources []) [.delete "firewall_zone" "z1"] := fun h =>
    absurd (h _ List.mem_cons_self "z1" rfl) (by decide)
  exact ⟨rfl, hnot, refusedUncovered_iff.2 hnot⟩

end UnifiMcp

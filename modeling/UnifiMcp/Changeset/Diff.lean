import UnifiMcp.Changeset.Record
import UnifiMcp.Tools.Projection

/-!
# The diff of a plan

The diff shows, for each mutation, the mutation and the values before and after it.  The two
values are cut to the fields of the resource's allowlist; the mutation is shown as it was staged,
with its whole body.  So of what the pre-image holds nothing outside the allowlist is shown, and
of what was staged everything is: `diff_hides_iff`.
-/

namespace UnifiMcp

open Collections

/-- A single change in a diff. -/
@[ext]
structure Change where
  mutation : StagedMutation
  preview : String
  before : Option Json
  after : Option Json

/-- A computed diff between a pre-image and staged mutations. -/
structure Diff where
  computed : Bool
  changes : List Change

/-- The change of one mutation. -/
def changeOf (r : Redactor) (preimage : Preimage) (mutation : StagedMutation) : Change :=
  let (before, after) : Option Json × Option Json := match mutation with
    | .create kind body => (none, some (r.projectByKindName kind body))
    | .update kind id body =>
        ((preimage.getResource id).map (r.projectByKindName kind),
          some (r.projectByKindName kind body))
    | .delete kind id => ((preimage.getResource id).map (r.projectByKindName kind), none)
    | .restore backupId => (none, some (.obj [("backup_id", .str backupId)]))
  { preview := mutation.preview, mutation, before, after }

/-- Compute a diff between the pre-image and staged mutations. -/
def diffAgainstPreimage (r : Redactor) (preimage : Preimage) (mutations : List StagedMutation) :
    Except UnifiError Diff :=
  .ok ⟨true, mutations.map (changeOf r preimage)⟩

/-- An optional value; none is written as `null`. -/
def Json.ofOption (v : Option Json) : Json := v.getD .null

/-- A change as it is serialised. -/
def Change.toJson (change : Change) : Json :=
  .obj [("after", .ofOption change.after), ("before", .ofOption change.before),
    ("mutation", change.mutation.toJson), ("preview", .str change.preview)]

/-- A diff as it is serialised. -/
def Diff.toJson (diff : Diff) : Json :=
  .obj [("changes", .arr (diff.changes.map Change.toJson)), ("computed", .bool diff.computed)]

/-! ## Plans and pre-images that should show the same -/

/-- Two mutations that differ in fields of their bodies only, and in none of an allowlist. -/
inductive SameButHidden : StagedMutation → StagedMutation → Prop where
  | create {kind : String} {body body' : Json} (alike : AlikeAs kind body body') :
      SameButHidden (.create kind body) (.create kind body')
  | update {kind id : String} {body body' : Json} (alike : AlikeAs kind body body') :
      SameButHidden (.update kind id body) (.update kind id body')
  | delete (kind id : String) : SameButHidden (.delete kind id) (.delete kind id)
  | restore (backupId : String) : SameButHidden (.restore backupId) (.restore backupId)

theorem SameButHidden.refl (m : StagedMutation) : SameButHidden m m := by
  cases m with
  | create kind body => exact .create (.refl kind body)
  | update kind id body => exact .update (.refl kind body)
  | delete kind id => exact .delete kind id
  | restore backupId => exact .restore backupId

/-- Two pre-images that hold the same under an id, but for fields outside the allowlist. -/
def HoldAlike (kind id : String) (preimage preimage' : Preimage) : Prop :=
  Option.Rel (AlikeAs kind) (preimage.getResource id) (preimage'.getResource id)

/-- The same for every resource that a plan addresses. -/
def ShowAlike (mutations : List StagedMutation) (preimage preimage' : Preimage) : Prop :=
  ∀ m ∈ mutations, ∀ kind id, m.target = some (kind, id) → HoldAlike kind id preimage preimage'

/-! ## What the diff shows -/

section Shown

variable {r : Redactor} {preimage preimage' : Preimage}

theorem before_eq (hr : r.Keeps) {kind id : String} (h : HoldAlike kind id preimage preimage') :
    (preimage.getResource id).map (r.projectByKindName kind) =
      (preimage'.getResource id).map (r.projectByKindName kind) := by
  unfold HoldAlike at h
  generalize preimage.getResource id = found at h ⊢
  generalize preimage'.getResource id = found' at h ⊢
  cases h with
  | some halike => exact congrArg some (hr.projectByKindName_eq halike)
  | none => rfl

/-- But for the mutation itself, a change does not show what is outside the allowlist. -/
theorem changeOf_eq (hr : r.Keeps) {m m' : StagedMutation} (h : SameButHidden m m')
    (hpre : ∀ kind id, m.target = some (kind, id) → HoldAlike kind id preimage preimage') :
    { changeOf r preimage m with mutation := m' } = changeOf r preimage' m' := by
  cases h with
  | @create kind body body' halike =>
      exact Change.ext rfl rfl rfl (congrArg some (hr.projectByKindName_eq halike))
  | @update kind id body body' halike =>
      exact Change.ext rfl rfl (before_eq hr (hpre kind id rfl))
        (congrArg some (hr.projectByKindName_eq halike))
  | delete kind id => exact Change.ext rfl rfl (before_eq hr (hpre kind id rfl)) rfl
  | restore backupId => rfl

theorem toJson_injective {m m' : StagedMutation} (h : m.toJson = m'.toJson) : m = m' := by
  have hread := congrArg StagedMutation.ofJson h
  rw [StagedMutation.ofJson_toJson, StagedMutation.ofJson_toJson] at hread
  exact Except.ok.inj hread

/-- A change shows its whole mutation. -/
theorem Change.toJson_mutation {change change' : Change} (h : change.toJson = change'.toJson) :
    change.mutation = change'.mutation := by
  unfold Change.toJson at h
  injection h with hfields
  simp only [List.cons.injEq, Prod.mk.injEq] at hfields
  exact toJson_injective hfields.2.2.1.2

/-- Plans whose changes are shown alike are the same, mutation by mutation. -/
theorem eq_of_changes_eq {mutations mutations' : List StagedMutation}
    (h : (mutations.map (changeOf r preimage)).map Change.toJson =
      (mutations'.map (changeOf r preimage')).map Change.toJson) : mutations = mutations' := by
  induction mutations generalizing mutations' with
  | nil =>
      cases mutations' with
      | nil => rfl
      | cons m' rest' => cases h
  | cons m rest ih =>
      cases mutations' with
      | nil => cases h
      | cons m' rest' =>
          obtain ⟨hhead, htail⟩ := List.cons.inj h
          have hm : m = m' := Change.toJson_mutation hhead
          rw [hm, ih htail]

/-- A serialised diff tells the plan. -/
theorem eq_of_diff_eq {mutations mutations' : List StagedMutation}
    (h : (diffAgainstPreimage r preimage mutations).map Diff.toJson =
      (diffAgainstPreimage r preimage' mutations').map Diff.toJson) : mutations = mutations' := by
  have hjson := Except.ok.inj h
  unfold Diff.toJson at hjson
  injection hjson with hfields
  simp only [List.cons.injEq, Prod.mk.injEq, Json.arr.injEq] at hfields
  exact eq_of_changes_eq hfields.1.2

/-- **What the diff hides.**  For two plans and two pre-images that differ in fields outside the
allowlists only, the serialised diffs are the same if and only if the plans are: nothing that is
hidden of a pre-image is shown, and all that should be hidden of a staged body is. -/
theorem diff_hides_iff (hr : r.Keeps) {mutations mutations' : List StagedMutation}
    (h : List.Forall₂ SameButHidden mutations mutations')
    (hpre : ShowAlike mutations preimage preimage') :
    (diffAgainstPreimage r preimage mutations).map Diff.toJson =
      (diffAgainstPreimage r preimage' mutations').map Diff.toJson ↔ mutations = mutations' := by
  constructor
  · exact eq_of_diff_eq
  · rintro rfl
    have hchanges : mutations.map (changeOf r preimage) = mutations.map (changeOf r preimage') :=
      List.map_congr_left fun m hm => changeOf_eq hr (.refl m) (hpre m hm)
    unfold diffAgainstPreimage
    rw [hchanges]

end Shown

/-! ## A passphrase in the diff -/

/-- A projection that keeps the named top-level fields of an object. -/
def keepingRedactor : Redactor where
  project allow
    | .obj fields => .obj (fields.filter fun e => decide (e.1 ∈ allow))
    | v => v
  projectMany _ v := v
  redactJsonValue v := v

theorem keepingRedactor_keeps : keepingRedactor.Keeps := fun _ _ => rfl

/-- A wireless network as it is on the controller, or as it is staged. -/
def wlanWith (passphrase : String) : Json :=
  .obj [("_id", .str "w1"), ("name", .str "guests"), ("x_passphrase", .str passphrase)]

theorem agreeOn_wlanWith (passphrase passphrase' : String) :
    AlikeAs "wlan" (wlanWith passphrase) (wlanWith passphrase') := by
  have hascending : ∀ v : Json, Ascending
      [("_id", .str "w1"), ("name", .str "guests"), ("x_passphrase", v)] := by
    intro v
    have hkeys : ["_id", "name", "x_passphrase"].Pairwise (· < ·) := by decide
    exact List.pairwise_map.1 hkeys
  refine .inr ⟨_, _, rfl, rfl, hascending _, hascending _, ?_⟩
  intro key hkey
  have hhidden : key ≠ "x_passphrase" := fun heq => absurd (heq ▸ hkey) (by decide)
  simp [findEntry_cons, Ne.symm hhidden]

/-- The passphrase on the controller is not shown. -/
theorem diff_hides_iff_wlan :
    (diffAgainstPreimage keepingRedactor (.fromResources [wlanWith "one"])
        [.delete "wlan" "w1"]).map Diff.toJson =
      (diffAgainstPreimage keepingRedactor (.fromResources [wlanWith "two"])
        [.delete "wlan" "w1"]).map Diff.toJson := by
  refine (diff_hides_iff keepingRedactor_keeps (.cons (.refl _) .nil) ?_).2 rfl
  intro m hm kind id htarget
  rw [List.mem_singleton.1 hm] at htarget
  cases htarget
  exact .some (agreeOn_wlanWith "one" "two")

/-- **The passphrase that is staged is shown**, although it is outside the allowlist: two plans
that differ in it only have different diffs. -/
theorem not_diff_hides :
    ¬ ∀ (r : Redactor) (preimage : Preimage) (mutations mutations' : List StagedMutation),
      r.Keeps → List.Forall₂ SameButHidden mutations mutations' →
      (diffAgainstPreimage r preimage mutations).map Diff.toJson =
        (diffAgainstPreimage r preimage mutations').map Diff.toJson := by
  intro h
  have hshown := h keepingRedactor (.fromResources [])
    [.create "wlan" (wlanWith "one")] [.create "wlan" (wlanWith "two")] keepingRedactor_keeps
    (.cons (.create (agreeOn_wlanWith "one" "two")) .nil)
  have hplans := eq_of_diff_eq hshown
  simp [wlanWith] at hplans

end UnifiMcp

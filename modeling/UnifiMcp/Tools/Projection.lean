import UnifiMcp.Tools.Redact

/-!
# What a projection hides

Two values that agree on the fields of an allowlist may differ in all others.  `AgreeOn` says
that, and `Redactor.Keeps` that a projection keeps the named top-level fields of an object and
nothing else; then the projections of two such values are the same.
-/

namespace UnifiMcp

open Collections

/-- Two objects that find the same under every allowed key. -/
structure SameFields (allow : List String) (fields fields' : List (String × Json)) : Prop where
  ascending : Ascending fields
  ascending' : Ascending fields'
  same : ∀ key ∈ allow, findEntry key fields = findEntry key fields'

/-- Two values that are the same, or objects that differ in fields outside the allowlist only. -/
def AgreeOn (allow : List String) (v v' : Json) : Prop :=
  v = v' ∨ ∃ fields fields', v = .obj fields ∧ v' = .obj fields' ∧ SameFields allow fields fields'

theorem AgreeOn.refl (allow : List String) (v : Json) : AgreeOn allow v v := .inl rfl

/-- The allowed fields of two objects that agree are the same entries. -/
theorem SameFields.filter_eq {allow : List String} {fields fields' : List (String × Json)}
    (h : SameFields allow fields fields') :
    (fields.filter fun e => decide (e.1 ∈ allow)) = fields'.filter fun e => decide (e.1 ∈ allow) :=
  Ascending.filter_eq (p := fun key => decide (key ∈ allow)) h.ascending h.ascending'
    fun key hkey => h.same key (of_decide_eq_true hkey)

namespace Redactor

variable (r : Redactor)

/-- The projection keeps exactly the named top-level fields of an object. -/
def Keeps : Prop :=
  ∀ allow fields, r.project allow (.obj fields) =
    .obj (fields.filter fun e => decide (e.1 ∈ allow))

variable {r}

/-- **A projection does not show what is outside its allowlist.** -/
theorem Keeps.project_eq (hr : r.Keeps) {allow : List String} {v v' : Json}
    (h : AgreeOn allow v v') : r.project allow v = r.project allow v' := by
  rcases h with rfl | ⟨fields, fields', rfl, rfl, hsame⟩
  · rfl
  · rw [hr, hr, hsame.filter_eq]

end Redactor

/-! ## Values shown as resources of a kind -/

/-- Two values that show the same as resources of a kind: they agree on its allowlist, and are
the same where the kind has none. -/
def AlikeAs (kind : String) (v v' : Json) : Prop :=
  match ResourceKind.parse kind with
  | .ok k =>
      match allowlistFor k with
      | some allow => AgreeOn allow v v'
      | none => v = v'
  | .error _ => v = v'

theorem AlikeAs.refl (kind : String) (v : Json) : AlikeAs kind v v := by
  unfold AlikeAs
  cases ResourceKind.parse kind with
  | error e => exact Eq.refl v
  | ok k =>
      dsimp only
      cases allowlistFor k with
      | none => exact Eq.refl v
      | some allow => exact AgreeOn.refl allow v

/-- Project a resource addressed by the name of its kind; a name that is no kind does not skip
the redaction. -/
def Redactor.projectByKindName (r : Redactor) (kind : String) (value : Json) : Json :=
  match ResourceKind.parse kind with
  | .ok k => r.projectResource k value
  | .error _ => r.redactOwned value

/-- Values that are alike as resources of a kind are projected to the same. -/
theorem Redactor.Keeps.projectByKindName_eq {r : Redactor} (hr : r.Keeps) {kind : String}
    {v v' : Json} (h : AlikeAs kind v v') :
    r.projectByKindName kind v = r.projectByKindName kind v' := by
  unfold AlikeAs at h
  unfold Redactor.projectByKindName
  cases hk : ResourceKind.parse kind with
  | error e =>
      rw [hk] at h
      rw [show v = v' from h]
  | ok k =>
      rw [hk] at h
      dsimp only at h ⊢
      unfold Redactor.projectResource
      cases hallow : allowlistFor k with
      | none =>
          rw [hallow] at h
          rw [show v = v' from h]
      | some allow =>
          rw [hallow] at h
          exact hr.project_eq h

end UnifiMcp

import UnifiMcp.Server.ChangeSets

/-!
# A stored plan reads back

A change set is stored as a list of JSON actions and applied from what is read back.  Nothing
that the pre-image holds under an id is `null`, so the actions that are read are the actions
that were written: the mutations, the pre-image entries they address and the fingerprint are
those that were approved.  A list with an action that does not read gives an error.
-/

namespace UnifiMcp

/-- What is found under an id is not `null`. -/
theorem nonNull_getResource (preimage : Preimage) (id : String) :
    StagedAction.nonNull (preimage.getResource id) = preimage.getResource id := by
  rcases hfound : preimage.getResource id with _ | v
  · rfl
  · have hid := Preimage.getResource_id hfound
    cases v with
    | null => cases hid
    | bool _ | num _ | str _ | arr _ | obj _ => rfl

/-- **The actions of a plan read back as themselves.** -/
theorem actionsOf_actionsFor (mutations : List StagedMutation) (preimage : Preimage) :
    actionsOf ((actionsFor mutations preimage).map StagedAction.toJson) =
      .ok (actionsFor mutations preimage) := by
  have hsame : ∀ action ∈ actionsFor mutations preimage,
      { action with preimage := StagedAction.nonNull action.preimage } = action := by
    intro action haction
    obtain ⟨m, -, rfl⟩ := List.mem_map.1 haction
    cases hid : m.resourceId with
    | none => rfl
    | some id => simp only [Option.bind_some, nonNull_getResource]
  rw [actionsOf_toJson, List.map_congr_left hsame, List.map_id']

/-- **What a plan's own ids look up is kept**, also when an id occurs more than once or is not
in the pre-image. -/
theorem getResource_fromResources {mutations : List StagedMutation} {preimage : Preimage}
    {m : StagedMutation} {id : String} (hm : m ∈ mutations) (hid : m.resourceId = some id) :
    (Preimage.fromResources (mutations.filterMap fun m =>
      m.resourceId.bind preimage.getResource)).getResource id = preimage.getResource id := by
  -- What is stored under another mutation and carries this id is the same entry.
  have hstored : ∀ v ∈ mutations.filterMap (fun m => m.resourceId.bind preimage.getResource),
      v.getStr? "_id" = some id → preimage.getResource id = some v := by
    intro v hv hvid
    obtain ⟨m', -, hfound⟩ := List.mem_filterMap.1 hv
    obtain ⟨id', -, hfound⟩ := Option.bind_eq_some_iff.1 hfound
    have hid' := Preimage.getResource_id hfound
    obtain rfl : id' = id := Option.some.inj (hid'.symm.trans hvid)
    exact hfound
  rcases hfind : (Preimage.fromResources (mutations.filterMap fun m =>
      m.resourceId.bind preimage.getResource)).getResource id with _ | v
  · rcases hrecorded : preimage.getResource id with _ | v
    · exact hfind
    · have hmem : v ∈ mutations.filterMap fun m => m.resourceId.bind preimage.getResource :=
        List.mem_filterMap.2 ⟨m, hm, by rw [hid]; exact hrecorded⟩
      have hnone := List.find?_eq_none.1 hfind v hmem
      exact absurd (decide_eq_true (Preimage.getResource_id hrecorded)) hnone
  · exact hfind.trans
      (hstored v (List.mem_of_find?_eq_some hfind) (Preimage.getResource_id hfind)).symm

/-! ## Actions that do not read -/

/-- An action of a stored list that does not read. -/
def HasUndecodable (stored : List Json) : Prop :=
  ∃ action ∈ stored, ∃ e, StagedAction.ofJson action = .error e

theorem actionsFrom_eq_ok {position : Nat} {stored : List Json} {actions : List StagedAction}
    (h : actionsFrom position stored = .ok actions) :
    stored.map StagedAction.ofJson = actions.map .ok := by
  induction stored generalizing position actions with
  | nil =>
      cases h
      rfl
  | cons v rest ih =>
      rw [actionsFrom] at h
      rcases hv : StagedAction.ofJson v with e | action
      · rw [hv] at h
        cases h
      · rw [hv] at h
        rcases hrest : actionsFrom (position + 1) rest with e | tail
        · rw [hrest] at h
          cases h
        · rw [hrest] at h
          cases h
          rw [List.map_cons, List.map_cons, hv, ih hrest]

/-- A list that reads has as many actions as were stored. -/
theorem length_of_actionsOf {stored : List Json} {actions : List StagedAction}
    (h : actionsOf stored = .ok actions) : actions.length = stored.length := by
  have hlength := congrArg List.length (actionsFrom_eq_ok h)
  rw [List.length_map, List.length_map] at hlength
  exact hlength.symm

/-- **An action that does not read is an error**, and no plan without it. -/
theorem actionsOf_error {stored : List Json} (h : HasUndecodable stored) :
    ∃ e, actionsOf stored = .error e := by
  rcases hread : actionsOf stored with e | actions
  · exact ⟨e, rfl⟩
  · obtain ⟨v, hv, e, hundecodable⟩ := h
    have hmem : (.error e : Except DecodeError StagedAction) ∈ actions.map .ok := by
      rw [← actionsFrom_eq_ok hread, ← hundecodable]
      exact List.mem_map_of_mem hv
    obtain ⟨action, -, hok⟩ := List.mem_map.1 hmem
    cases hok

/-- The mutations that are read off a stored plan are those it was made of. -/
theorem mutations_of_planOf {r : ChangeSetRecord} {mutations mutations' : List StagedMutation}
    {preimage preimage' : Preimage}
    (hactions : r.actions = (actionsFor mutations preimage).map StagedAction.toJson)
    (hplan : UnifiServer.planOf r = .ok (mutations', preimage')) : mutations = mutations' := by
  unfold UnifiServer.planOf at hplan
  rw [hactions, mutationsOf_actionsFor, preimageOf_actionsFor] at hplan
  exact (Prod.mk.inj (Except.ok.inj hplan)).1

/-! ## The stored form -/

/-- What `with_plan` leaves of the record it was given. -/
theorem withPlan_ok {server : UnifiServer} {record r : ChangeSetRecord}
    {mutations : List StagedMutation} {preimage : Preimage} {description : String}
    (h : server.withPlan record mutations preimage description = .ok r) :
    r.id = record.id ∧ r.owner = record.owner ∧ r.device = record.device ∧
      r.state = record.state ∧
      r.actions = (actionsFor mutations preimage).map StagedAction.toJson ∧
      server.mecmcp.changeSetDigest r.owner r.device
        (server.fingerprintOf (actionsFor mutations preimage)) r.actions = .ok r.digest ∧
      r.expectedCandidateFingerprint = server.fingerprintOf (actionsFor mutations preimage) := by
  unfold UnifiServer.withPlan at h
  cases hartifact : server.renderPreview record.device description mutations preimage with
  | error e =>
      rw [hartifact] at h
      cases h
  | ok artifact =>
      rw [hartifact] at h
      cases hdigest : server.mecmcp.changeSetDigest record.owner record.device
          (server.fingerprintOf (actionsFor mutations preimage))
          ((actionsFor mutations preimage).map StagedAction.toJson) with
      | error e =>
          simp only [hdigest] at h
          cases h
      | ok digest =>
          simp only [hdigest] at h
          cases h
          exact ⟨rfl, rfl, rfl, rfl, rfl, hdigest, rfl⟩

/-- What is read back of a plan that was stored. -/
structure ReadsBack (server : UnifiServer) (mutations : List StagedMutation)
    (preimage : Preimage) : Prop where
  mutations_eq : mutationsOf ((actionsFor mutations preimage).map StagedAction.toJson) =
    .ok mutations
  preimage_eq : ∃ rebuilt,
    preimageOf ((actionsFor mutations preimage).map StagedAction.toJson) = .ok rebuilt ∧
      ∀ m ∈ mutations, ∀ id, m.resourceId = some id →
        rebuilt.getResource id = preimage.getResource id
  fingerprint_eq : ∀ record description staged,
    server.withPlan record mutations preimage description = .ok staged →
      staged.actions = (actionsFor mutations preimage).map StagedAction.toJson ∧
        ∃ actions, actionsOf staged.actions = .ok actions ∧
          server.fingerprintOf actions = staged.expectedCandidateFingerprint

/-- A list of stored actions gives a plan of its length, or an error. -/
structure ReadsWhole (stored : List Json) : Prop where
  refused : HasUndecodable stored → (∃ e, actionsOf stored = .error e) ∧
    (∃ e, mutationsOf stored = .error e) ∧ ∃ e, preimageOf stored = .error e
  whole : ∀ mutations, mutationsOf stored = .ok mutations → mutations.length = stored.length

theorem readsBack (server : UnifiServer) (mutations : List StagedMutation)
    (preimage : Preimage) : ReadsBack server mutations preimage where
  mutations_eq := mutationsOf_actionsFor mutations preimage
  preimage_eq := by
    refine ⟨_, ?_, fun m hm id hid => getResource_fromResources hm hid⟩
    rw [preimageOf, actionsOf_actionsFor]
    show Except.ok _ = _
    simp only [actionsFor, List.filterMap_map, Function.comp_def]
  fingerprint_eq := by
    intro record description staged h
    obtain ⟨-, -, -, -, hactions, -, hfingerprint⟩ := withPlan_ok h
    refine ⟨hactions, actionsFor mutations preimage, ?_, hfingerprint.symm⟩
    rw [hactions, actionsOf_actionsFor]

theorem readsWhole (stored : List Json) : ReadsWhole stored where
  refused := by
    intro h
    obtain ⟨e, herror⟩ := actionsOf_error h
    refine ⟨⟨e, herror⟩, ⟨e, ?_⟩, e, ?_⟩
    · rw [mutationsOf, herror]
      rfl
    · rw [preimageOf, herror]
      rfl
  whole := by
    intro mutations h
    rcases hread : actionsOf stored with e | actions
    · rw [mutationsOf, hread] at h
      cases h
    · rw [mutationsOf, hread] at h
      cases h
      rw [List.length_map, length_of_actionsOf hread]

/-- **The stored form of a plan is the plan.** -/
theorem stored_plan_reads_back (server : UnifiServer) (mutations : List StagedMutation)
    (preimage : Preimage) (stored : List Json) :
    ReadsBack server mutations preimage ∧ ReadsWhole stored :=
  ⟨readsBack server mutations preimage, readsWhole stored⟩

end UnifiMcp

import UnifiMcp.Changeset.Checks
import UnifiMcp.Client.Runs
import UnifiMcp.Interaction.World

/-!
# What an applied change set has been checked for

`verify_applied` is documented to compare each updated resource with the staged body,
and compares the field `name` alone.  So a run that ends `Applied` may have read back a
resource that carries nothing else of what was staged.  The last section says exactly
for which plans that cannot happen: those whose final updates set no field but `name`
(`_id` and `site_id` belong to the controller), and those that can never be applied.

Creates and deletes are checked as documented.
-/

namespace UnifiMcp

open Interaction

/-! ## Applied runs -/

/-- A run that ends `Applied`: every write succeeded with the ids `done` records, and
`reads` are the reads of a verification that found nothing wrong. -/
structure AppliedRun (c : UnifiClient) (preimage : Preimage) (mutations : List StagedMutation)
    (t : List (Event ClientSig)) (done : List (StagedMutation × Option String))
    (reads : List (Event FetchSig)) : Prop where
  plan : mutations = done.map Prod.fst
  calls : ∃ t₁ t₂, t = t₁ ++ t₂ ∧
    Program.Expands c.controllerOps
      (⟨.preimageMatches preimage mutations, .ok true⟩ :: writeEvents 0 done) t₁ ∧
    Program.Expands c.fetchOps reads t₂
  verified : Confirms (CreatedIds.recordAll [] 0 done) 0 mutations reads

/-- Every run that ends `Applied` is one. -/
theorem appliedRun_of_runs {c : UnifiClient} {preimage : Preimage}
    {mutations : List StagedMutation} {t : List (Event ClientSig)} {o : Outcome}
    (h : (applyOver c preimage mutations).Runs t o) (ho : o.state = .applied) :
    ∃ done reads, AppliedRun c preimage mutations t done reads := by
  obtain ⟨u, hu, hexp⟩ := (Program.runs_interpret _).1 h
  cases applyRun_of_runs hu with
  | refused r stale => cases ho
  | failed done m rest e split rollback failures rolled =>
      dsimp only at ho
      split_ifs at ho
  | written done whole verified =>
      cases verified with
      | error e => cases ho
      | ok _ =>
          rw [← List.cons_append, Program.expands_append] at hexp
          obtain ⟨t₁, t₂, rfl, h₁, h₂⟩ := hexp
          cases h₂ with
          | cons head tail =>
              cases tail
              obtain ⟨reads, hreads, hexp⟩ := (Program.runs_interpret _).1 head
              exact ⟨done, reads, whole, ⟨t₁, _, rfl, h₁, by simpa using hexp⟩,
                gives_verifyApplied_ok.1 hreads⟩

/-- And each of them is the trace of such a run. -/
theorem AppliedRun.runs {c : UnifiClient} {preimage : Preimage}
    {mutations : List StagedMutation} {t : List (Event ClientSig)}
    {done : List (StagedMutation × Option String)} {reads : List (Event FetchSig)}
    (h : AppliedRun c preimage mutations t done reads) :
    ∃ o, (applyOver c preimage mutations).Runs t o ∧ o.state = .applied := by
  obtain ⟨rfl, ⟨t₁, t₂, rfl, hcalls, hreads⟩, hverified⟩ := h
  obtain ⟨o, ho, hstate⟩ := runs_written preimage done (.ok ())
  refine ⟨o, (Program.runs_interpret _).2 ⟨_, ho, ?_⟩, hstate⟩
  rw [← List.cons_append, Program.expands_append]
  refine ⟨t₁, t₂, rfl, hcalls, ?_⟩
  rw [← List.append_nil t₂]
  exact .cons ((Program.runs_interpret _).2
    ⟨reads, gives_verifyApplied_ok.2 hverified, hreads⟩) .nil

/-! ## The property -/

/-- The `j`-th mutation addresses this resource, and no later one does. -/
def IsLast (mutations : List StagedMutation) (j : Nat) (target : String × String) : Prop :=
  (∃ m, mutations[j]? = some m ∧ m.target = some target) ∧
    ∀ j' m, j < j' → mutations[j']? = some m → m.target ≠ some target

/-- What a verification read back is what was staged. -/
structure ReadsBackAsStaged (done : List (StagedMutation × Option String))
    (reads : List (Event FetchSig)) : Prop where
  updates : ∀ j kind id body, (done.map Prod.fst)[j]? = some (.update kind id body) →
    IsLast (done.map Prod.fst) j (kind, id) →
    ∃ live, readBack (CreatedIds.recordAll [] 0 done) 0 (done.map Prod.fst) reads j =
        some (.ok (some live)) ∧
      ∀ key value, body.get? key = some value → key ≠ "_id" → key ≠ "site_id" →
        live.get? key = some value
  creates : ∀ j kind body id, done[j]? = some (.create kind body, some id) →
    StagedMutation.delete kind id ∉ done.map Prod.fst →
    ∃ live, readBack (CreatedIds.recordAll [] 0 done) 0 (done.map Prod.fst) reads j =
      some (.ok (some live))
  deletes : ∀ j kind id, (done.map Prod.fst)[j]? = some (.delete kind id) →
    IsLast (done.map Prod.fst) j (kind, id) →
    readBack (CreatedIds.recordAll [] 0 done) 0 (done.map Prod.fst) reads j =
      some (.ok none)

/-- The final update of every resource sets no field but `name`, apart from the two the
controller manages. -/
def LastUpdatesNameOnly (mutations : List StagedMutation) : Prop :=
  ∀ j kind id body, mutations[j]? = some (.update kind id body) →
    IsLast mutations j (kind, id) →
    ∀ key value, body.get? key = some value → key = "name" ∨ key = "_id" ∨ key = "site_id"

/-- The client could carry out this mutation, were the controller to agree. -/
def CanApply (c : UnifiClient) (preimage : Preimage) : StagedMutation → Prop
  | .create kind _ =>
      (∃ (k : ResourceKind) (site : String), k.name = kind ∧
        UnifiClient.SiteFor c k.surface site ∧
        UnifiClient.CanAddress c k k.pathTemplate [("site", site)]) ∧
      ∃ id, UnifiClient.Addressable c kind id
  | .update kind id _ =>
      kind ≠ "device" ∧ (preimage.getResource id).isSome ∧ UnifiClient.Addressable c kind id
  | .delete kind id =>
      (preimage.getResource id).isSome ∧ UnifiClient.Addressable c kind id
  | .restore _ => False

/-- Every mutation of the plan could be carried out, were the controller to agree. -/
def CanBeApplied (c : UnifiClient) (preimage : Preimage) (mutations : List StagedMutation) :
    Prop :=
  ∀ m ∈ mutations, CanApply c preimage m

/-! ## Plans for which it holds -/

/-- An update that sets no field but `name` is compared whole. -/
theorem readsBackAsStaged_of_nameOnly {c : UnifiClient} {preimage : Preimage}
    {mutations : List StagedMutation} {t : List (Event ClientSig)}
    {done : List (StagedMutation × Option String)} {reads : List (Event FetchSig)}
    (h : AppliedRun c preimage mutations t done reads)
    (hname : LastUpdatesNameOnly mutations) : ReadsBackAsStaged done reads := by
  obtain ⟨rfl, -, hverified⟩ := h
  refine ⟨?_, ?_, ?_⟩
  · intro j kind id body hj hlast
    obtain ⟨r, hr, hacc, -⟩ :=
      hverified.readBack hj (show readOf _ _ _ = some ⟨kind, id⟩ from rfl)
    cases r with
    | none => cases hacc
    | some live =>
        refine ⟨live, hr, fun key value hvalue hid hsite => ?_⟩
        rcases hname j kind id body hj hlast key value hvalue with rfl | rfl | rfl
        · exact hacc value hvalue
        · exact absurd rfl hid
        · exact absurd rfl hsite
  · intro j kind body id hj _
    have hlookup := CreatedIds.lookup_recordAll [] 0 done hj
    have hop : readOf (CreatedIds.recordAll [] 0 done) (0 + j) (.create kind body) =
        some ⟨kind, id⟩ := by
      rw [readOf, hlookup]
      rfl
    obtain ⟨r, hr, hacc, -⟩ := hverified.readBack (m := .create kind body)
      (by rw [List.getElem?_map, hj]; rfl) hop
    cases r with
    | none => cases hacc
    | some live => exact ⟨live, hr⟩
  · intro j kind id hj _
    obtain ⟨r, hr, hacc, -⟩ :=
      hverified.readBack hj (show readOf _ _ _ = some ⟨kind, id⟩ from rfl)
    cases r with
    | none => exact hr
    | some live => cases hacc

/-! ## Plans that can be applied -/

/-- A write that succeeded is one the client could carry out. -/
theorem CanApply.of_gives {c : UnifiClient} {preimage : Preimage} {m : StagedMutation}
    {t : List (Event ClientSig)} {r : Option String}
    (h : (c.applyMutation m).Gives t (.ok r))
    (hpre : ∀ kind id, m.target = some (kind, id) → (preimage.getResource id).isSome)
    (hcreate : ∀ kind body id, m = .create kind body → r = some id →
      UnifiClient.Addressable c kind id) : CanApply c preimage m := by
  cases m with
  | create kind body =>
      obtain ⟨k, t₁, t₂, site, response, id, hk, rfl, hsite, hpost, -, hr⟩ :=
        UnifiClient.gives_applyMutation_create h
      exact ⟨⟨k, site, hk, UnifiClient.siteFor_of_gives hsite,
        UnifiClient.canAddress_of_gives hpost⟩, id, hcreate kind body id rfl hr⟩
  | update kind id body =>
      obtain ⟨k, t₁, t₂, t₃, site, merged, response, hk, hdevice, rfl, hsite, -, hput, -⟩ :=
        UnifiClient.gives_applyMutation_update h
      exact ⟨hdevice, hpre kind id rfl, k, site, hk, UnifiClient.siteFor_of_gives hsite,
        UnifiClient.canAddress_of_gives hput⟩
  | delete kind id =>
      obtain ⟨k, t₁, t₂, site, response, hk, rfl, hsite, hdelete, -⟩ :=
        UnifiClient.gives_applyMutation_delete h
      exact ⟨hpre kind id rfl, k, site, hk, UnifiClient.siteFor_of_gives hsite,
        UnifiClient.canAddress_of_gives hdelete⟩
  | restore backupId => cases (Fallible.gives_throw.1 h).2

/-- The calls of a stretch of successful writes are those of its members. -/
theorem mem_writeEvents (index : Nat) {j : Nat} {done : List (StagedMutation × Option String)}
    {m : StagedMutation} {r : Option String} (h : done[j]? = some (m, r)) :
    writeEvent (index + j) m (.ok r) ∈ writeEvents index done := by
  induction done generalizing index j with
  | nil => simp at h
  | cons d done ih =>
      cases j with
      | zero =>
          obtain rfl : d = (m, r) := by simpa using h
          exact List.mem_cons_self
      | succ j =>
          rw [show index + (j + 1) = index + 1 + j by omega]
          exact List.mem_cons_of_mem _ (ih (index + 1) (by simpa using h))

/-- Only a plan that can be applied is. -/
theorem AppliedRun.canBeApplied {c : UnifiClient} {preimage : Preimage}
    {mutations : List StagedMutation} {t : List (Event ClientSig)}
    {done : List (StagedMutation × Option String)} {reads : List (Event FetchSig)}
    (h : AppliedRun c preimage mutations t done reads) : CanBeApplied c preimage mutations := by
  obtain ⟨rfl, ⟨t₁, t₂, rfl, hcalls, hreads⟩, hverified⟩ := h
  cases hcalls with
  | cons hcheck hwrites =>
      obtain ⟨checks, hchecks, -⟩ := (Program.runs_interpret _).1 hcheck
      have hmatches := gives_preimageMatches_true.1 hchecks
      intro m hm
      obtain ⟨d, hd, rfl⟩ := List.mem_map.1 hm
      obtain ⟨j, hj⟩ := List.mem_iff_getElem?.1 hd
      obtain ⟨t', ht', -⟩ := hwrites.of_mem (mem_writeEvents 0 hj)
      refine CanApply.of_gives ht' ?_ ?_
      · intro kind id htarget
        obtain ⟨v, hv, -⟩ := hmatches.getResource hm htarget
        rw [hv]
        rfl
      · -- The id of a create is one that verification found.
        intro kind body id hcreate hid
        have hj' : done[j]? = some (.create kind body, some id) := by
          rw [hj, ← hcreate, ← hid]
        have hop : readOf (CreatedIds.recordAll [] 0 done) (0 + j) (.create kind body) =
            some ⟨kind, id⟩ := by
          rw [readOf, CreatedIds.lookup_recordAll [] 0 done hj']
          rfl
        obtain ⟨r, -, hacc, hmem⟩ := hverified.readBack (m := .create kind body)
          (by rw [List.getElem?_map, hj']; rfl) hop
        obtain ⟨t'', ht'', -⟩ := hreads.of_mem hmem
        cases r with
        | none => cases hacc
        | some live => exact UnifiClient.addressable_of_gives ht''

/-! ## The other direction -/

/-- Whatever may be carried out is, in some run, with an id that can be addressed if it is
a create. -/
theorem CanApply.exists_gives {c : UnifiClient} {preimage : Preimage} {m : StagedMutation}
    (h : CanApply c preimage m) :
    ∃ r t, (c.applyMutation m).Gives t (.ok r) ∧
      ∀ kind body, m = .create kind body →
        ∃ id, r = some id ∧ UnifiClient.Addressable c kind id := by
  cases m with
  | create kind body =>
      obtain ⟨⟨k, site, rfl, hsite, haddress⟩, id, hid⟩ := h
      obtain ⟨t, ht⟩ := UnifiClient.exists_gives_applyMutation_create hsite haddress body id
      refine ⟨some id, t, ht, fun kind' body' heq => ?_⟩
      cases heq
      exact ⟨id, rfl, hid⟩
  | update kind id body =>
      obtain ⟨hdevice, -, haddress⟩ := h
      obtain ⟨t, ht⟩ := UnifiClient.exists_gives_applyMutation_update haddress hdevice body
      exact ⟨none, t, ht, nofun⟩
  | delete kind id =>
      obtain ⟨-, haddress⟩ := h
      obtain ⟨t, ht⟩ := UnifiClient.exists_gives_applyMutation_delete haddress
      exact ⟨none, t, ht, nofun⟩
  | restore backupId => cases h

/-- The writes of a plan that can be carried out, in some run. -/
theorem CanBeApplied.exists_writes {c : UnifiClient} {preimage : Preimage}
    {mutations : List StagedMutation} (h : CanBeApplied c preimage mutations) (index : Nat) :
    ∃ done t, mutations = done.map Prod.fst ∧
      Program.Expands c.controllerOps (writeEvents index done) t ∧
      ∀ d ∈ done, ∀ kind body, d.1 = .create kind body →
        ∃ id, d.2 = some id ∧ UnifiClient.Addressable c kind id := by
  induction mutations generalizing index with
  | nil => exact ⟨[], [], rfl, .nil, by simp⟩
  | cons m rest ih =>
      obtain ⟨done, t₂, rfl, hexp, hids⟩ :=
        ih (fun m' hm' => h m' (List.mem_cons_of_mem _ hm')) (index + 1)
      obtain ⟨r, t₁, ht₁, hid⟩ := (h m List.mem_cons_self).exists_gives
      refine ⟨(m, r) :: done, t₁ ++ t₂, rfl, .cons ht₁ hexp, ?_⟩
      intro d hd
      rcases List.mem_cons.1 hd with rfl | hd
      · exact hid
      · exact hids d hd

theorem CanApply.addressable {c : UnifiClient} {preimage : Preimage} {m : StagedMutation}
    (h : CanApply c preimage m) {kind id : String} (htarget : m.target = some (kind, id)) :
    (preimage.getResource id).isSome ∧ UnifiClient.Addressable c kind id := by
  cases m with
  | create kind' body | restore backupId => cases htarget
  | update kind' id' body =>
      cases htarget
      exact h.2
  | delete kind' id' =>
      cases htarget
      exact h

/-- The stale check of a plan that can be carried out passes in some run. -/
theorem CanBeApplied.exists_check {c : UnifiClient} {preimage : Preimage}
    {mutations : List StagedMutation} (h : CanBeApplied c preimage mutations) :
    ∃ t, Program.Runs (c.controllerOps (.preimageMatches preimage mutations)) t (.ok true) := by
  obtain ⟨u, hu, hops⟩ := exists_matches preimage fun m hm kind id htarget =>
    ((h m hm).addressable htarget).1
  obtain ⟨t, ht⟩ : ∃ t, Program.Expands c.fetchOps u t := by
    refine Program.exists_expands fun e he => ?_
    obtain ⟨m, hm, htarget, r, hr⟩ := hops e he
    obtain ⟨t, ht⟩ :=
      UnifiClient.exists_gives_fetchResource ((h m hm).addressable htarget).2 r
    exact ⟨t, by rw [hr]; exact ht⟩
  exact ⟨t, (Program.runs_interpret _).2 ⟨u, gives_preimageMatches_true.2 hu, ht⟩⟩

/-- **A plan that can be applied is, whatever its final reads are answered.** -/
theorem CanBeApplied.exists_appliedRun {c : UnifiClient} {preimage : Preimage}
    {mutations : List StagedMutation} (h : CanBeApplied c preimage mutations)
    (answers : Nat → Option Json)
    (hanswers : ∀ j m, mutations[j]? = some m → (∀ backupId, m ≠ .restore backupId) →
      Accepts m (answers j)) :
    ∃ t done reads, AppliedRun c preimage mutations t done reads ∧
      ∀ j m op, mutations[j]? = some m →
        readOf (CreatedIds.recordAll [] 0 done) j m = some op →
        readBack (CreatedIds.recordAll [] 0 done) 0 mutations reads j =
          some (.ok (answers j)) := by
  obtain ⟨done, t₂, rfl, hwrites, hids⟩ := h.exists_writes 0
  obtain ⟨t₁, hcheck⟩ := h.exists_check
  obtain ⟨reads, hreads, hback, hops⟩ :=
    exists_confirms (CreatedIds.recordAll [] 0 done) 0 (done.map Prod.fst) answers
      fun j m op hm hop => by
        rw [Nat.zero_add] at hop ⊢
        refine hanswers j m hm ?_
        rintro backupId rfl
        cases hop
  obtain ⟨t₃, ht₃⟩ : ∃ t, Program.Expands c.fetchOps reads t := by
    refine Program.exists_expands fun e he => ?_
    obtain ⟨j, m, hm, hop, hr⟩ := hops e he
    have hmem : m ∈ done.map Prod.fst := List.mem_of_getElem? hm
    have haddress : UnifiClient.Addressable c e.op.kind e.op.id := by
      cases m with
      | create kind body =>
          rw [List.getElem?_map, Option.map_eq_some_iff] at hm
          obtain ⟨⟨m', r'⟩, hd, rfl⟩ := hm
          obtain ⟨id, rfl, hid⟩ := hids _ (List.mem_of_getElem? hd) kind body rfl
          rw [readOf, CreatedIds.lookup_recordAll [] 0 done hd] at hop
          rw [← Option.some.inj hop]
          exact hid
      | update kind id body =>
          rw [← Option.some.inj hop]
          exact ((h _ hmem).addressable rfl).2
      | delete kind id =>
          rw [← Option.some.inj hop]
          exact ((h _ hmem).addressable rfl).2
      | restore backupId => cases hop
    obtain ⟨t, ht⟩ := UnifiClient.exists_gives_fetchResource haddress (answers (0 + j))
    exact ⟨t, by rw [hr]; exact ht⟩
  refine ⟨_, done, reads, ⟨rfl, ⟨t₁ ++ t₂, t₃, rfl, .cons hcheck hwrites, ht₃⟩, hreads⟩, ?_⟩
  intro j m op hm hop
  have hb := hback j m op hm (by rwa [Nat.zero_add])
  rwa [Nat.zero_add] at hb

/-- The least a read of an updated resource has to hold for verification to be content:
its name, if one was staged. -/
def leastAccepted : StagedMutation → Option Json
  | .update _ _ body => some (.obj ((body.get? "name").toList.map fun name => ("name", name)))
  | .create _ _ => some .null
  | .delete _ _ | .restore _ => none

theorem leastAccepted_get? (kind id : String) (body : Json) (key : String) :
    ∃ live, leastAccepted (.update kind id body) = some live ∧
      live.get? key = if key = "name" then body.get? "name" else none := by
  refine ⟨_, rfl, ?_⟩
  rw [Json.get?_obj]
  cases body.get? "name" with
  | none => simp
  | some name =>
      by_cases hkey : key = "name"
      · simp [hkey, Collections.findEntry_cons]
      · simp [hkey, Collections.findEntry_cons, Ne.symm hkey]

theorem accepts_leastAccepted {m : StagedMutation} (h : ∀ backupId, m ≠ .restore backupId) :
    Accepts m (leastAccepted m) := by
  cases m with
  | create kind body | delete kind id => trivial
  | update kind id body =>
      obtain ⟨live, hlive, hget⟩ := leastAccepted_get? kind id body "name"
      rw [hlive]
      intro name hname
      rw [hget, if_pos rfl, hname]
  | restore backupId => exact absurd rfl (h backupId)

/-- **When a run that ends `Applied` read back what was staged.**  Always, for a plan whose
final updates set no field but `name`, and for one that can never be applied; otherwise
some controller makes a run end `Applied` on a resource that lacks a staged field. -/
theorem applied_readsBackAsStaged_iff (c : UnifiClient) (preimage : Preimage)
    (mutations : List StagedMutation) :
    (∀ t o done reads, (applyOver c preimage mutations).Runs t o → o.state = .applied →
        AppliedRun c preimage mutations t done reads → ReadsBackAsStaged done reads) ↔
      LastUpdatesNameOnly mutations ∨ ¬ CanBeApplied c preimage mutations := by
  constructor
  · intro hclaim
    by_contra hcond
    obtain ⟨hname, hcan⟩ := not_or.1 hcond
    rw [not_not] at hcan
    -- Answer every read with the least verification is content with.
    let answers : Nat → Option Json := fun j => (mutations[j]?).bind leastAccepted
    obtain ⟨t, done, reads, hrun, hback⟩ := hcan.exists_appliedRun answers fun j m hm hne => by
      show Accepts m ((mutations[j]?).bind leastAccepted)
      rw [hm]
      exact accepts_leastAccepted hne
    obtain ⟨o, ho, hstate⟩ := hrun.runs
    have hprop := hclaim t o done reads ho hstate hrun
    refine hname fun j kind id body hj hlast key value hvalue => ?_
    by_contra hkey
    simp only [not_or] at hkey
    obtain ⟨hkname, hkid, hksite⟩ := hkey
    obtain rfl := hrun.plan
    obtain ⟨live, hlive, hcarries⟩ := hprop.updates j kind id body hj hlast
    have hread := hback j (.update kind id body) ⟨kind, id⟩ hj rfl
    obtain ⟨least, hleast, hget⟩ := leastAccepted_get? kind id body key
    have hsame : some live = leastAccepted (.update kind id body) := by
      have hans : answers j = leastAccepted (.update kind id body) := by
        show ((done.map Prod.fst)[j]?).bind leastAccepted = _
        rw [hj]
        rfl
      rw [hlive] at hread
      rw [← hans]
      exact Except.ok.inj (Option.some.inj hread)
    obtain rfl : live = least := Option.some.inj (hsame.trans hleast)
    have hmiss := hcarries key value hvalue hkid hksite
    rw [hget, if_neg hkname] at hmiss
    cases hmiss
  · rintro (hname | hcan) t o done reads - - hrun
    · exact readsBackAsStaged_of_nameOnly hrun hname
    · exact absurd hrun.canBeApplied hcan

/-! ## A write that did not take

A controller that answers every request with the network `lan` as it was, so that a
staged VLAN is never stored. -/

/-- The controller that keeps answering with `lan`. -/
def ignoringWrites : (op : ClientOp) → Unit → op.Answer × Unit
  | .send _, s => (.ok ⟨200, "", .ok (.obj [("data", .arr [lan])])⟩, s)
  | .cachedSiteUuid, s | .cachedVersion, s => (.ok none, s)
  | .cacheSiteUuid _, s | .cacheVersion _, s => (.ok (), s)

/-- The run that ends `Applied` over that controller. -/
theorem appliedRun_ignoringWrites :
    ∃ t, AppliedRun lanClient (.fromResources [lan]) vlanPlan t
      [(.update "network" "n1" (.obj [("vlan", .num (.posInt 20))]), none)]
      [readEvent ⟨"network", "n1"⟩ (some lan)] := by
  have hcheck := (lanClient.controllerOps
    (.preimageMatches (.fromResources [lan]) vlanPlan)).eval_runs ignoringWrites ()
  have hwrite := Program.eval_runs (lanClient.applyMutation
    (.update "network" "n1" (.obj [("vlan", .num (.posInt 20))]))).run ignoringWrites ()
  have hread :=
    Program.eval_runs (lanClient.fetchResource "network" "n1").run ignoringWrites ()
  refine ⟨_, rfl, ⟨_, _, rfl, .cons hcheck (.cons hwrite .nil), .cons hread .nil⟩, ?_⟩
  exact ⟨some lan, [], rfl, nofun, rfl⟩

/-- **Not every run that ends `Applied` read back what was staged.**  The VLAN is nowhere
in the resource that the verification was content with. -/
theorem not_applied_readsBackAsStaged :
    ¬ ∀ c preimage mutations t o done reads, (applyOver c preimage mutations).Runs t o →
      o.state = .applied → AppliedRun c preimage mutations t done reads →
      ReadsBackAsStaged done reads := by
  intro h
  obtain ⟨t, hrun⟩ := appliedRun_ignoringWrites
  obtain ⟨o, ho, hstate⟩ := hrun.runs
  obtain ⟨live, hlive, hcarries⟩ :=
    (h _ _ _ t o _ _ ho hstate hrun).updates 0 "network" "n1" _ rfl
      ⟨⟨_, rfl, rfl⟩, fun j m hj hm => by
        have hnone : vlanPlan[j]? = none := List.getElem?_eq_none hj
        cases hnone.symm.trans hm⟩
  cases hlive
  cases hcarries "vlan" _ rfl (by decide) (by decide)

end UnifiMcp

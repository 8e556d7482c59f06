import UnifiMcp.Changeset.Checks
import UnifiMcp.Client.WriteEffects

/-!
# What a clean rollback leaves behind

A run that ends `Partial` reports that everything written was rolled back.  Rollback
covers the writes that `apply_mutation` reported as succeeded, and `apply_mutation` also
reports a failure when the controller performed the write and the answer could not be
read: a PUT that was not answered with JSON, or a create whose answer holds no id in the
shape expected, such as a single Private v2 object, which `fetch_resource` does read.

`partialApply_restores_iff` says when a run that ends `Partial` leaves the controller as
it was: exactly when no such write was performed, apart from PUTs that something else
makes good.
-/

namespace UnifiMcp

open Interaction UnifiClient

variable {c : UnifiClient} {preimage : Preimage} {s s' : Network} {t : List (Event ClientSig)}

/-! ## The stale check -/

/-- While nothing is written, reads are answered with what was held at the start. -/
theorem readsFrom_of_landed_eq_nil (hpath : Path NetworkStep s t s') (h : landed t = []) :
    ∀ e ∈ t, ReadsFrom (fun k site id => s.held (k, site, id)) e := by
  induction hpath with
  | nil => simp
  | @cons s s₁ s₂ e t head _ ih =>
      have hone : landed [e] = [] ∧ landed t = [] := by
        rw [← List.singleton_append, landed_append] at h
        exact List.append_eq_nil_iff.1 h
      have hheld := held_of_landed_eq_nil (.cons head .nil) hone.1
      intro e' he'
      rcases List.mem_cons.1 he' with rfl | he'
      · rintro k site id response raw items ⟨request, rfl, hmethod, htemplate, hparams⟩
        have hsent : Sent s request (.ok response) s₁ := head
        rw [Sent, if_neg (by rw [hmethod]; exact Bool.false_ne_true)] at hsent
        exact hsent.2 k site id response raw items ⟨request, rfl, hmethod, htemplate, hparams⟩
      · rw [← hheld]
        exact ih hone.2 e' he'

/-- What the stale check has established when it passed. -/
structure Checked (c : UnifiClient) (preimage : Preimage) (mutations : List StagedMutation)
    (s : Network) (t : List (Event ClientSig)) (s' : Network) : Prop where
  idle : Idle s t s'
  settled : Settled c s s'
  found : ∀ m ∈ mutations, ∀ kind id, m.target = some (kind, id) → ∃ key v,
    c.keyAt s' kind id = some key ∧ s.held key = some v ∧ preimage.getResource id = some v

theorem Checked.cons {m : StagedMutation} {rest : List StagedMutation} {s₁ : Network}
    {t₁ t₂ : List (Event ClientSig)} (hidle : Idle s t₁ s₁) (hsettled : Settled c s s₁)
    (hfound : ∀ kind id, m.target = some (kind, id) → ∃ key v,
      c.keyAt s₁ kind id = some key ∧ s.held key = some v ∧ preimage.getResource id = some v)
    (h : Checked c preimage rest s₁ t₂ s') : Checked c preimage (m :: rest) s (t₁ ++ t₂) s' := by
  refine ⟨hidle.trans h.idle, hsettled.trans h.settled, ?_⟩
  intro m' hm' kind id htarget
  rcases List.mem_cons.1 hm' with rfl | hm'
  · obtain ⟨key, v, hkey, hheld, hvalue⟩ := hfound kind id htarget
    exact ⟨key, v, h.settled.keyAt hkey, hheld, hvalue⟩
  · rw [← hidle.2]
    exact h.found m' hm' kind id htarget

/-- After the stale check passed, every resource addressed holds what the pre-image has. -/
theorem checked_of_matches {mutations : List StagedMutation} {u : List (Event FetchSig)}
    (h : Matches preimage mutations u) (hexp : Program.Expands c.fetchOps u t)
    (hpath : Path NetworkStep s t s') : Checked c preimage mutations s t s' := by
  induction mutations generalizing u s t with
  | nil =>
      rw [Matches] at h
      subst h
      cases hexp
      rw [← path_nil.1 hpath]
      exact ⟨⟨rfl, rfl⟩, .refl s, by simp⟩
  | cons m rest ih =>
      rw [Matches] at h
      cases htarget : m.target with
      | none =>
          rw [htarget] at h
          have hnone : Idle s [] s := ⟨rfl, rfl⟩
          refine Checked.cons hnone (.refl s) ?_ (ih h hexp hpath)
          intro kind id htarget'
          cases htarget.symm.trans htarget'
      | some target =>
          obtain ⟨kind, id⟩ := target
          rw [htarget] at h
          obtain ⟨v, tail, hvalue, rfl, hrest⟩ := h
          cases hexp with
          | @cons _ _ t₁ t₂ head htail =>
              obtain ⟨s₁, hpath₁, hpath₂⟩ := path_append.1 hpath
              have hfetch : (c.fetchResource kind id).Gives t₁ (.ok (some v)) := head
              have hidle := idle_of_asks (asks_fetchResource kind id) hfetch hpath₁
              have hsettled : Settled c s s₁ :=
                (keepsUuid_fetchResource kind id).settled hfetch hpath₁
              refine Checked.cons hidle hsettled ?_ (ih hrest htail hpath₂)
              intro kind' id' htarget'
              obtain ⟨rfl, rfl⟩ := Prod.ext_iff.1 (Option.some.inj (htarget.symm.trans htarget'))
              have hreads := readsFrom_of_landed_eq_nil hpath₁ hidle.1
              obtain ⟨k, t₃, t₄, site, rfl, rfl, hsite, hgot | ⟨e, -, -, hnone⟩⟩ :=
                gives_fetchResource_ok hfetch
              · obtain ⟨raw, items, hget, hitems, hv⟩ := hgot
                obtain ⟨s₂, hpath₃, hpath₄⟩ := path_append.1 hpath₁
                have hsite₁ : c.siteAt s₁ k.surface = some site :=
                  keepsUuid_request.siteAt hget hpath₄ (siteAt_of_gives hsite hpath₃)
                have hheld := getOne_ok hget
                  (fun e he => hreads e (List.mem_append_right _ he)) hitems
                exact ⟨_, v, keyAt_name hsite₁ id, (hv.trans hheld).symm, hvalue⟩
              · cases hnone

/-! ## The forward writes -/

/-- The writes of `done`, all of them reported as succeeded. -/
structure Forward (c : UnifiClient) (done : List (StagedMutation × Option String))
    (s : Network) (t : List (Event ClientSig)) (s' : Network) : Prop where
  settled : Settled c s s'
  untouched : ∀ key, (∀ d ∈ done, c.targetKey s' d.1 d.2 ≠ some key) → s'.held key = s.held key
  present : ∀ key, (s.held key).isSome → (s'.held key).isSome
  targets : ∀ d ∈ done, ∃ key, c.targetKey s' d.1 d.2 = some key ∧ (s'.held key).isSome ∧
    ∀ kind body, d.1 = .create kind body → s.held key = none
  writes : ∀ w ∈ landed t, ¬ Unread w ∧
    (w.1.method = .put → ∃ d ∈ done, ∃ key, c.targetKey s' d.1 d.2 = some key ∧ w.1.At key)
  puts : ∀ kind id body r, (StagedMutation.update kind id body, r) ∈ done →
    ∃ w ∈ landed t, ∃ key, w.1.method = .put ∧ w.1.At key ∧ c.keyAt s' kind id = some key

theorem forward_nil (s : Network) : Forward c [] s [] s :=
  ⟨.refl s, fun _ _ => rfl, fun _ h => h, by simp, by simp, by simp⟩

/-- One more write in front. -/
theorem Forward.cons {m : StagedMutation} {createdId : Option String}
    {done : List (StagedMutation × Option String)} {s₁ : Network}
    {t₁ t₂ : List (Event ClientSig)} {key : Key} {v : Json} {w : Request × Response}
    (hsettled : Settled c s s₁) (hwrote : Wrote c m s t₁ s₁ key v w) (hread : ¬ Unread w)
    (hkey : c.targetKey s₁ m createdId = some key) (h : Forward c done s₁ t₂ s') :
    Forward c ((m, createdId) :: done) s (t₁ ++ t₂) s' := by
  have hheld : ∀ key', key' ≠ key → s₁.held key' = s.held key' := by
    intro key' hne
    rw [hwrote.held, Function.update_of_ne hne]
  have hhere : (s₁.held key).isSome := by
    rw [hwrote.held, Function.update_self]
    rfl
  have hadds : ∀ key', (s.held key').isSome → (s₁.held key').isSome := by
    intro key' hsome
    by_cases hne : key' = key
    · rw [hne]
      exact hhere
    · rw [hheld key' hne]
      exact hsome
  have hkey' := h.settled.targetKey hkey
  refine ⟨hsettled.trans h.settled, ?_, fun key' hsome => h.present key' (hadds key' hsome),
    ?_, ?_, ?_⟩
  · intro key' hnot
    obtain ⟨hnot₁, hnot₂⟩ := List.forall_mem_cons.1 hnot
    have hne : key' ≠ key := by
      rintro rfl
      exact hnot₁ hkey'
    rw [h.untouched key' hnot₂, hheld key' hne]
  · intro d hd
    rcases List.mem_cons.1 hd with rfl | hd
    · refine ⟨key, hkey', h.present key hhere, ?_⟩
      rintro kind body rfl
      exact hwrote.shown.2
    · obtain ⟨key', hd', hsome, hcreate⟩ := h.targets d hd
      refine ⟨key', hd', hsome, ?_⟩
      intro kind body hm
      have hnone := hcreate kind body hm
      by_contra hheld'
      have hsome' := hadds key' (Option.isSome_iff_ne_none.2 hheld')
      rw [hnone] at hsome'
      cases hsome'
  · intro w' hw'
    rw [landed_append, hwrote.trace] at hw'
    rcases List.mem_cons.1 hw' with rfl | hw'
    · refine ⟨hread, fun hput => ⟨_, List.mem_cons_self, key, hkey', ?_⟩⟩
      have hshown := hwrote.shown
      cases m with
      | create kind body =>
          rw [hshown.1] at hput
          cases hput
      | update kind id body => exact hshown.2.1
      | delete kind id | restore backupId => exact hshown.elim
    · obtain ⟨hread', hputs⟩ := h.writes w' hw'
      refine ⟨hread', fun hput => ?_⟩
      obtain ⟨d, hd, hrest⟩ := hputs hput
      exact ⟨d, List.mem_cons_of_mem _ hd, hrest⟩
  · intro kind id body r hmem
    rw [landed_append, hwrote.trace]
    rcases List.mem_cons.1 hmem with heq | hmem
    · obtain ⟨rfl, rfl⟩ := Prod.ext_iff.1 heq
      obtain ⟨hmethod, haddress, -, hkeyAt⟩ := hwrote.shown
      exact ⟨w, List.mem_cons_self, key, hmethod, haddress, h.settled.keyAt hkeyAt⟩
    · obtain ⟨w', hw', hrest⟩ := h.puts kind id body r hmem
      exact ⟨w', List.mem_cons_of_mem _ hw', hrest⟩

/-- The forward loop, up to where it stopped. -/
theorem forward_of_expands {done : List (StagedMutation × Option String)} {index : Nat}
    (hplan : ∀ d ∈ done, d.1.IsCreateOrUpdate)
    (hexp : Program.Expands c.controllerOps (writeEvents index done) t)
    (hpath : Path NetworkStep s t s') : Forward c done s t s' := by
  induction done generalizing index s t with
  | nil =>
      cases hexp
      rw [← path_nil.1 hpath]
      exact forward_nil s
  | cons d done ih =>
      obtain ⟨m, createdId⟩ := d
      obtain ⟨hm, hdone⟩ := List.forall_mem_cons.1 hplan
      cases hexp with
      | @cons _ _ t₁ t₂ head tail =>
          obtain ⟨s₁, hpath₁, hpath₂⟩ := path_append.1 hpath
          have hrun : (c.applyMutation m).Gives t₁ (.ok createdId) := head
          have hsettled : Settled c s s₁ := (keepsUuid_applyMutation m).settled hrun hpath₁
          rcases mutation_effect hm hrun hpath₁ with ⟨-, e, he⟩ | ⟨key, v, w, hwrote, hend⟩
          · cases he
          · rcases hend with ⟨⟨e, he⟩, -⟩ | ⟨r, hr, hread, hkey⟩
            · cases he
            · cases hr
              exact (ih hdone tail hpath₂).cons hsettled hwrote hread hkey

/-! ## The rollback -/

/-- The call that rolls one mutation back, answered `Ok`. -/
def undoEvent (preimage : Preimage) (createdIds : CreatedIds) (item : StagedMutation × Nat) :
    Event ControllerSig :=
  ⟨.rollbackMutation item.2 item.1 (priorValueOf preimage item.1) (createdIds.lookup item.2),
    .ok ()⟩

/-- A rollback without failures is one in which every call was answered `Ok`. -/
theorem runs_rollbackLoop_clean {createdIds : CreatedIds} {items : List (StagedMutation × Nat)}
    {failures : List String} {u : List (Event ControllerSig)}
    (h : (rollbackLoop preimage createdIds items failures).Runs u []) :
    failures = [] ∧ u = items.map (undoEvent preimage createdIds) := by
  induction items generalizing failures u with
  | nil =>
      obtain ⟨rfl, rfl⟩ := h
      exact ⟨rfl, rfl⟩
  | cons item rest ih =>
      obtain ⟨m, index⟩ := item
      cases m with
      | restore backupId =>
          have hfailures := (ih h).1
          simp at hfailures
      | create kind body | update kind id body | delete kind id =>
          obtain ⟨ans, tail, rfl, hrest⟩ := h
          cases ans with
          | error e =>
              have hfailures := (ih hrest).1
              simp at hfailures
          | ok u =>
              obtain ⟨hfailures, rfl⟩ := ih hrest
              exact ⟨hfailures, rfl⟩

/-- A rollback without failures. -/
structure RolledBack (c : UnifiClient) (preimage : Preimage) (createdIds : CreatedIds)
    (items : List (StagedMutation × Nat)) (s : Network) (t : List (Event ClientSig))
    (s' : Network) : Prop where
  settled : Settled c s s'
  targets : ∀ item ∈ items, ∃ key,
    c.targetKey s' item.1 (createdIds.lookup item.2) = some key
  untouched : ∀ key, (∀ item ∈ items,
    c.targetKey s' item.1 (createdIds.lookup item.2) ≠ some key) → s'.held key = s.held key
  restored : ∀ base : Key → Option Json, (∀ item ∈ items, ∀ key,
      c.targetKey s' item.1 (createdIds.lookup item.2) = some key →
      base key = priorValueOf preimage item.1) →
    ∀ item ∈ items, ∀ key, c.targetKey s' item.1 (createdIds.lookup item.2) = some key →
      s'.held key = base key
  writes : ∀ w ∈ landed t, ¬ Unread w ∧ (w.1.method = .put → ∃ item ∈ items, ∃ key,
    c.targetKey s' item.1 (createdIds.lookup item.2) = some key ∧ w.1.At key)

/-- What a rollback without failures leaves behind. -/
theorem rolledBack_of_expands {createdIds : CreatedIds} {items : List (StagedMutation × Nat)}
    (hplan : ∀ item ∈ items, item.1.IsCreateOrUpdate)
    (hexp : Program.Expands c.controllerOps (items.map (undoEvent preimage createdIds)) t)
    (hpath : Path NetworkStep s t s') : RolledBack c preimage createdIds items s t s' := by
  induction items generalizing s t with
  | nil =>
      cases hexp
      rw [← path_nil.1 hpath]
      exact ⟨.refl s, by simp, fun _ _ => rfl, by simp, by simp⟩
  | cons item rest ih =>
      obtain ⟨hm, hrest⟩ := List.forall_mem_cons.1 hplan
      cases hexp with
      | @cons _ _ t₁ t₂ head tail =>
          obtain ⟨s₁, hpath₁, hpath₂⟩ := path_append.1 hpath
          obtain ⟨hsettled, key, hkey, hheld, hwrites⟩ := rollback_effect hm head hpath₁
          have h := ih hrest tail hpath₂
          have hkey' := h.settled.targetKey hkey
          refine ⟨hsettled.trans h.settled, ?_, ?_, ?_, ?_⟩
          · intro item' hitem'
            rcases List.mem_cons.1 hitem' with rfl | hitem'
            · exact ⟨key, hkey'⟩
            · exact h.targets item' hitem'
          · intro key' hnot
            obtain ⟨hnot₁, hnot₂⟩ := List.forall_mem_cons.1 hnot
            have hne : key' ≠ key := by
              rintro rfl
              exact hnot₁ hkey'
            rw [h.untouched key' hnot₂, hheld, Function.update_of_ne hne]
          · intro base hbase item' hitem' key' hkeyOf
            obtain ⟨hbase₁, hbase₂⟩ := List.forall_mem_cons.1 hbase
            by_cases hlater : ∃ later ∈ rest,
                c.targetKey s' later.1 (createdIds.lookup later.2) = some key'
            · obtain ⟨later, hlater, hkeyLater⟩ := hlater
              exact h.restored base hbase₂ later hlater key' hkeyLater
            · rcases List.mem_cons.1 hitem' with rfl | hitem'
              · obtain rfl := Option.some.inj (hkey'.symm.trans hkeyOf)
                have hnot : ∀ later ∈ rest,
                    c.targetKey s' later.1 (createdIds.lookup later.2) ≠ some key :=
                  fun later hmem heq => hlater ⟨later, hmem, heq⟩
                rw [h.untouched key hnot, hheld, Function.update_self, hbase₁ key hkey']
              · exact absurd ⟨item', hitem', hkeyOf⟩ hlater
          · intro w hw
            rcases List.mem_append.1 ((landed_append t₁ t₂) ▸ hw) with hw | hw
            · obtain ⟨hread, hput⟩ := hwrites w hw
              exact ⟨hread, fun h => ⟨item, List.mem_cons_self, key, hkey', hput h⟩⟩
            · obtain ⟨hread, hput⟩ := h.writes w hw
              refine ⟨hread, fun h => ?_⟩
              obtain ⟨item', hitem', hrest⟩ := hput h
              exact ⟨item', List.mem_cons_of_mem _ hitem', hrest⟩

/-! ## The whole run -/

/-- One of the writes that succeeded went to this key. -/
def Covered (c : UnifiClient) (s : Network) (done : List (StagedMutation × Option String))
    (key : Key) : Prop :=
  ∃ d ∈ done, c.targetKey s d.1 d.2 = some key

/-- What is rolled back, with its position. -/
theorem mem_rollbackItems {done : List (StagedMutation × Option String)}
    {item : StagedMutation × Nat} :
    item ∈ (done.map Prod.fst).zipIdx.reverse ↔ ∃ r, done[item.2]? = some (item.1, r) := by
  rw [List.mem_reverse, List.mem_zipIdx_iff_getElem?, List.getElem?_map, Option.map_eq_some_iff]
  constructor
  · rintro ⟨⟨m, r⟩, hd, rfl⟩
    exact ⟨r, hd⟩
  · rintro ⟨r, hd⟩
    exact ⟨_, hd, rfl⟩

/-- The id recorded for a create is the one its target is known by. -/
theorem targetKey_lookup {done : List (StagedMutation × Option String)} {i : Nat}
    {m : StagedMutation} {r : Option String} {key : Key} (hd : done[i]? = some (m, r))
    (hkey : c.targetKey s m r = some key) :
    c.targetKey s m ((CreatedIds.recordAll [] 0 done).lookup i) = some key := by
  cases m with
  | create kind body =>
      obtain ⟨id, rfl, hkeyAt⟩ := Option.bind_eq_some_iff.1 hkey
      have hlookup := CreatedIds.lookup_recordAll [] 0 done hd
      rw [Nat.zero_add] at hlookup
      rw [hlookup]
      exact hkey
  | update kind id body | delete kind id | restore backupId => exact hkey

/-- A run that ends `Partial`: the stale check passed, the writes of `done` succeeded, that
of `m` failed, and the rollback had no failures. -/
structure PartialRun (c : UnifiClient) (preimage : Preimage) (mutations : List StagedMutation)
    (done : List (StagedMutation × Option String)) (m : StagedMutation) (s s₁ s₂ s₃ s' : Network)
    (t₀ t₁ t₂ t₃ : List (Event ClientSig)) : Prop where
  plan : ∀ m ∈ mutations, m.IsCreateOrUpdate
  planned : ∀ d ∈ done, d.1 ∈ mutations
  failing : m ∈ mutations
  checked : Checked c preimage mutations s t₀ s₁
  forward : Forward c done s₁ t₁ s₂
  failed : ∃ e, MutationEffect c m s₂ t₂ s₃ (.error e)
  settled : Settled c s₂ s₃
  rolledBack : RolledBack c preimage (CreatedIds.recordAll [] 0 done)
    (done.map Prod.fst).zipIdx.reverse s₃ t₃ s'

theorem partialRun_of_runs {mutations : List StagedMutation} {o : Outcome}
    (hplan : ∀ m ∈ mutations, m.IsCreateOrUpdate)
    (h : (applyOver c preimage mutations).Runs t o) (ho : o.state = .partialApply)
    (hpath : Path NetworkStep s t s') :
    ∃ done m s₁ s₂ s₃ t₀ t₁ t₂ t₃, t = t₀ ++ (t₁ ++ (t₂ ++ t₃)) ∧
      PartialRun c preimage mutations done m s s₁ s₂ s₃ s' t₀ t₁ t₂ t₃ := by
  obtain ⟨u, hu, hexp⟩ := (Program.runs_interpret _).1 h
  cases applyRun_of_runs hu with
  | refused r stale => cases ho
  | written done whole verified => cases verified <;> cases ho
  | failed done m rest e split rollback failures rolled =>
      have hclean : failures = [] := by
        by_contra hne
        rw [if_neg hne] at ho
        cases ho
      subst hclean
      obtain ⟨-, rfl⟩ := runs_rollbackLoop_clean rolled
      cases hexp with
      | @cons _ _ t₀ _ hcheck hexp =>
          obtain ⟨t₁, _, rfl, hwrites, hexp⟩ := Program.expands_append.1 hexp
          cases hexp with
          | @cons _ _ t₂ t₃ hfail hrollback =>
              obtain ⟨s₁, hpath₀, hpath⟩ := path_append.1 hpath
              obtain ⟨s₂, hpath₁, hpath⟩ := path_append.1 hpath
              obtain ⟨s₃, hpath₂, hpath₃⟩ := path_append.1 hpath
              obtain ⟨reads, hreads, hfetches⟩ := (Program.runs_interpret _).1 hcheck
              have hdone : ∀ d ∈ done, d.1 ∈ mutations := by
                intro d hd
                rw [split]
                exact List.mem_append_left _ (List.mem_map_of_mem hd)
              have hm : m ∈ mutations := by
                rw [split]
                exact List.mem_append_right _ List.mem_cons_self
              have hfail : (c.applyMutation m).Gives t₂ (.error e) := hfail
              refine ⟨done, m, s₁, s₂, s₃, t₀, t₁, t₂, t₃, rfl, hplan, hdone, hm,
                checked_of_matches (gives_preimageMatches_true.1 hreads) hfetches hpath₀,
                forward_of_expands (fun d hd => hplan _ (hdone d hd)) hwrites hpath₁,
                ⟨e, mutation_effect (hplan m hm) hfail hpath₂⟩,
                (keepsUuid_applyMutation m).settled hfail hpath₂,
                rolledBack_of_expands ?_ hrollback hpath₃⟩
              intro item hitem
              obtain ⟨r, hr⟩ := mem_rollbackItems.1 hitem
              exact hplan _ (hdone _ (List.mem_of_getElem? hr))

section PartialRun

variable {mutations : List StagedMutation} {done : List (StagedMutation × Option String)}
  {m : StagedMutation} {s₁ s₂ s₃ : Network} {t₀ t₁ t₂ t₃ : List (Event ClientSig)}

theorem PartialRun.settled_forward
    (h : PartialRun c preimage mutations done m s s₁ s₂ s₃ s' t₀ t₁ t₂ t₃) : Settled c s₂ s' :=
  h.settled.trans h.rolledBack.settled

/-- What a successful write went to is the same wherever one asks for it. -/
theorem PartialRun.covered_iff
    (h : PartialRun c preimage mutations done m s s₁ s₂ s₃ s' t₀ t₁ t₂ t₃) (key : Key) :
    Covered c s₂ done key ↔ Covered c s' done key := by
  constructor
  · rintro ⟨d, hd, hkey⟩
    exact ⟨d, hd, h.settled_forward.targetKey hkey⟩
  · rintro ⟨d, hd, hkey⟩
    obtain ⟨key', hkey', -⟩ := h.forward.targets d hd
    obtain rfl := Option.some.inj ((h.settled_forward.targetKey hkey').symm.trans hkey)
    exact ⟨d, hd, hkey'⟩

/-- What was written successfully is what is rolled back. -/
theorem PartialRun.covered_iff_item
    (h : PartialRun c preimage mutations done m s s₁ s₂ s₃ s' t₀ t₁ t₂ t₃) (key : Key) :
    Covered c s' done key ↔ ∃ item ∈ (done.map Prod.fst).zipIdx.reverse,
      c.targetKey s' item.1 ((CreatedIds.recordAll [] 0 done).lookup item.2) = some key := by
  constructor
  · rintro ⟨⟨m', r⟩, hd, hkey⟩
    obtain ⟨i, hi⟩ := List.mem_iff_getElem?.1 hd
    exact ⟨(m', i), mem_rollbackItems.2 ⟨r, hi⟩, targetKey_lookup hi hkey⟩
  · rintro ⟨⟨m', i⟩, hitem, hkey⟩
    obtain ⟨r, hi⟩ := mem_rollbackItems.1 hitem
    obtain ⟨key', hkey', -⟩ := h.forward.targets _ (List.mem_of_getElem? hi)
    have hlast := targetKey_lookup hi (h.settled_forward.targetKey hkey')
    obtain rfl := Option.some.inj (hlast.symm.trans hkey)
    exact ⟨_, List.mem_of_getElem? hi, h.settled_forward.targetKey hkey'⟩

/-- An update of the plan is of something that was held. -/
theorem PartialRun.held_of_update
    (h : PartialRun c preimage mutations done m s s₁ s₂ s₃ s' t₀ t₁ t₂ t₃)
    {kind id : String} {body : Json} (hm : .update kind id body ∈ mutations) {s₄ : Network}
    (hsettled : Settled c s₁ s₄) {key : Key} (hkey : c.keyAt s₄ kind id = some key) :
    ∃ v, s.held key = some v ∧ preimage.getResource id = some v := by
  obtain ⟨key', v, hkey', hheld, hvalue⟩ := h.checked.found _ hm kind id rfl
  obtain rfl := Option.some.inj ((hsettled.keyAt hkey').symm.trans hkey)
  exact ⟨v, hheld, hvalue⟩

/-- What a rollback writes back is what was held before. -/
theorem PartialRun.prior
    (h : PartialRun c preimage mutations done m s s₁ s₂ s₃ s' t₀ t₁ t₂ t₃)
    {d : StagedMutation × Option String} (hd : d ∈ done) {key : Key}
    (hkey : c.targetKey s' d.1 d.2 = some key) : s.held key = priorValueOf preimage d.1 := by
  have hsettled := h.forward.settled.trans h.settled_forward
  obtain ⟨key', hkey', -, hcreate⟩ := h.forward.targets d hd
  obtain rfl := Option.some.inj ((h.settled_forward.targetKey hkey').symm.trans hkey)
  have hm := h.planned d hd
  obtain ⟨m', r⟩ := d
  cases m' with
  | create kind body =>
      rw [← h.checked.idle.2]
      exact hcreate kind body rfl
  | update kind id body =>
      obtain ⟨v, hheld, hvalue⟩ := h.held_of_update hm hsettled hkey
      exact hheld.trans hvalue.symm
  | delete kind id | restore backupId => exact (h.plan _ hm).elim

/-- What was written successfully is as it was before. -/
theorem PartialRun.restored
    (h : PartialRun c preimage mutations done m s s₁ s₂ s₃ s' t₀ t₁ t₂ t₃) {key : Key}
    (hcovered : Covered c s' done key) : s'.held key = s.held key := by
  obtain ⟨item, hitem, hkey⟩ := (h.covered_iff_item key).1 hcovered
  refine h.rolledBack.restored s.held ?_ item hitem key hkey
  rintro ⟨m', i⟩ hitem' key' hkey'
  obtain ⟨r, hi⟩ := mem_rollbackItems.1 hitem'
  obtain ⟨key'', hkey'', -⟩ := h.forward.targets _ (List.mem_of_getElem? hi)
  have hlast := targetKey_lookup hi (h.settled_forward.targetKey hkey'')
  obtain rfl := Option.some.inj (hlast.symm.trans hkey')
  exact h.prior (List.mem_of_getElem? hi) (h.settled_forward.targetKey hkey'')

/-- Everything else is as the failing write left it. -/
theorem PartialRun.left
    (h : PartialRun c preimage mutations done m s s₁ s₂ s₃ s' t₀ t₁ t₂ t₃) {key : Key}
    (hnot : ¬ Covered c s' done key) : s'.held key = s₃.held key ∧ s₂.held key = s.held key := by
  refine ⟨h.rolledBack.untouched key ?_, ?_⟩
  · intro item hitem hkey
    exact hnot ((h.covered_iff_item key).2 ⟨item, hitem, hkey⟩)
  · rw [h.forward.untouched key, h.checked.idle.2]
    intro d hd hkey
    exact hnot ((h.covered_iff key).1 ⟨d, hd, hkey⟩)

/-- What was written successfully was there when the failing mutation came. -/
theorem PartialRun.present_of_covered
    (h : PartialRun c preimage mutations done m s s₁ s₂ s₃ s' t₀ t₁ t₂ t₃) {key : Key}
    (hcovered : Covered c s' done key) : (s₂.held key).isSome := by
  obtain ⟨d, hd, hkey⟩ := (h.covered_iff key).2 hcovered
  obtain ⟨key', hkey', hsome, -⟩ := h.forward.targets d hd
  obtain rfl := Option.some.inj (hkey'.symm.trans hkey)
  exact hsome

/-- The performed writes of the run, apart from that of the failing mutation, were answered
readably, and the PUTs among them went to covered keys. -/
theorem PartialRun.other_writes
    (h : PartialRun c preimage mutations done m s s₁ s₂ s₃ s' t₀ t₁ t₂ t₃)
    {w : Request × Response} (hw : w ∈ landed (t₀ ++ (t₁ ++ (t₂ ++ t₃)))) :
    w ∈ landed t₂ ∨ ¬ Unread w ∧
      (w.1.method = .put → ∃ key, Covered c s' done key ∧ w.1.At key) := by
  simp only [landed_append, h.checked.idle.1, List.nil_append, List.mem_append] at hw
  rcases hw with hw | hw | hw
  · obtain ⟨hread, hput⟩ := h.forward.writes w hw
    refine .inr ⟨hread, fun hmethod => ?_⟩
    obtain ⟨d, hd, key, hkey, haddress⟩ := hput hmethod
    exact ⟨key, ⟨d, hd, h.settled_forward.targetKey hkey⟩, haddress⟩
  · exact .inl hw
  · obtain ⟨hread, hput⟩ := h.rolledBack.writes w hw
    refine .inr ⟨hread, fun hmethod => ?_⟩
    obtain ⟨item, hitem, key, hkey, haddress⟩ := hput hmethod
    exact ⟨key, (h.covered_iff_item key).2 ⟨item, hitem, hkey⟩, haddress⟩

/-- A covered key that held something was written by a PUT that was answered readably. -/
theorem PartialRun.exists_put
    (h : PartialRun c preimage mutations done m s s₁ s₂ s₃ s' t₀ t₁ t₂ t₃) {key : Key}
    (hcovered : Covered c s' done key) (hheld : (s.held key).isSome) :
    ∃ w ∈ landed (t₀ ++ (t₁ ++ (t₂ ++ t₃))), w.1.method = .put ∧ w.1.At key ∧ ¬ Unread w := by
  obtain ⟨d, hd, hkey⟩ := hcovered
  have hprior := h.prior hd hkey
  have hm := h.planned d hd
  obtain ⟨m', r⟩ := d
  cases m' with
  | create kind body =>
      rw [hprior] at hheld
      cases hheld
  | update kind id body =>
      obtain ⟨w, hw, key', hmethod, haddress, hkey'⟩ := h.forward.puts kind id body r hd
      obtain rfl := Option.some.inj ((h.settled_forward.keyAt hkey').symm.trans hkey)
      refine ⟨w, ?_, hmethod, haddress, (h.forward.writes w hw).1⟩
      simp only [landed_append, List.mem_append]
      exact .inr (.inl hw)
  | delete kind id | restore backupId => exact (h.plan _ hm).elim

/-- When the failing mutation left `v` behind, the controller is as it was exactly when
the rollback covers that key or `v` had been there before. -/
theorem PartialRun.restores_iff
    (h : PartialRun c preimage mutations done m s s₁ s₂ s₃ s' t₀ t₁ t₂ t₃) {key : Key} {v : Json}
    (hwrote : s₃.held = Function.update s₂.held key (some v)) :
    s'.held = s.held ↔ Covered c s' done key ∨ s.held key = some v := by
  constructor
  · intro hsame
    by_cases hcovered : Covered c s' done key
    · exact .inl hcovered
    · obtain ⟨hlast, -⟩ := h.left hcovered
      rw [hwrote, Function.update_self] at hlast
      exact .inr ((congrFun hsame key).symm.trans hlast)
  · intro hgood
    funext key'
    by_cases hcovered : Covered c s' done key'
    · exact h.restored hcovered
    · obtain ⟨hlast, hbefore⟩ := h.left hcovered
      rw [hlast, hwrote]
      by_cases hkey : key' = key
      · subst hkey
        rw [Function.update_self, hgood.resolve_left hcovered]
      · rw [Function.update_of_ne hkey, hbefore]

/-- A create that was performed and not reported as a success stays behind. -/
theorem PartialRun.create_stays
    (h : PartialRun c preimage mutations done m s s₁ s₂ s₃ s' t₀ t₁ t₂ t₃) {key : Key} {v : Json}
    (hfresh : s₂.held key = none) : ¬ (Covered c s' done key ∨ s.held key = some v) := by
  rintro (hcovered | hheld)
  · have hsome := h.present_of_covered hcovered
    rw [hfresh] at hsome
    cases hsome
  · have hsome : (s₁.held key).isSome := by
      rw [h.checked.idle.2, hheld]
      rfl
    have hsome := h.forward.present key hsome
    rw [hfresh] at hsome
    cases hsome

end PartialRun

/-- Something else makes this write good: it is a PUT that wrote what had been held before
the run, or the resource was written by another PUT, which succeeded. -/
def MadeGood (held : Key → Option Json) (writes : List (Request × Response))
    (w : Request × Response) : Prop :=
  w.1.method = .put ∧ ∃ key, w.1.At key ∧
    (w.1.body = held key ∨
      ∃ w' ∈ writes, w'.1.method = .put ∧ w'.1.At key ∧ ¬ Unread w')

/-- **A run that ends `Partial` leaves no effect of the plan exactly when** every write
that was performed and whose answer could not be read was made good. -/
theorem partialApply_restores_iff {mutations : List StagedMutation} {o : Outcome}
    (hplan : ∀ m ∈ mutations, m.IsCreateOrUpdate)
    (hrun : (applyOver c preimage mutations).Runs t o) (ho : o.state = .partialApply)
    (hpath : Path NetworkStep s t s') :
    s'.held = s.held ↔ ∀ w ∈ landed t, Unread w → MadeGood s.held (landed t) w := by
  obtain ⟨done, m, s₁, s₂, s₃, t₀, t₁, t₂, t₃, rfl, h⟩ := partialRun_of_runs hplan hrun ho hpath
  obtain ⟨e, ⟨hidle, -⟩ | ⟨key, v, w, hwrote, hend⟩⟩ := h.failed
  · -- The failing mutation wrote nothing.
    have hsame : s'.held = s.held := by
      funext key
      by_cases hcovered : Covered c s' done key
      · exact h.restored hcovered
      · obtain ⟨hlast, hbefore⟩ := h.left hcovered
        rw [hlast, hidle.2, hbefore]
    refine ⟨fun _ w hw hunread => ?_, fun _ => hsame⟩
    rcases h.other_writes hw with hfail | ⟨hread, -⟩
    · rw [hidle.1] at hfail
      cases hfail
    · exact absurd hunread hread
  · -- It wrote something, and its answer could not be read.
    have hunread : Unread w := by
      rcases hend with ⟨-, hunread⟩ | ⟨createdId, he, -⟩
      · exact hunread
      · cases he
    have hmem : w ∈ landed (t₀ ++ (t₁ ++ (t₂ ++ t₃))) := by
      simp [landed_append, hwrote.trace]
    have honly : (∀ w' ∈ landed (t₀ ++ (t₁ ++ (t₂ ++ t₃))), Unread w' →
        MadeGood s.held (landed (t₀ ++ (t₁ ++ (t₂ ++ t₃)))) w') ↔
          MadeGood s.held (landed (t₀ ++ (t₁ ++ (t₂ ++ t₃)))) w := by
      refine ⟨fun hall => hall w hmem hunread, fun hgood w' hw' hunread' => ?_⟩
      rcases h.other_writes hw' with hfail | ⟨hread, -⟩
      · rw [hwrote.trace] at hfail
        rw [List.mem_singleton.1 hfail]
        exact hgood
      · exact absurd hunread' hread
    rw [h.restores_iff hwrote.held, honly]
    have hshown := hwrote.shown
    have hm := h.failing
    cases m with
    | delete kind id | restore backupId => exact hshown.elim
    | create kind body =>
        obtain ⟨hmethod, hfresh⟩ := hshown
        refine iff_of_false (h.create_stays hfresh) ?_
        rintro ⟨hput, -⟩
        rw [hmethod] at hput
        cases hput
    | update kind id body =>
        obtain ⟨hmethod, haddress, hbody, hkey⟩ := hshown
        obtain ⟨prior, hheld, -⟩ :=
          h.held_of_update hm (h.forward.settled.trans h.settled) hkey
        constructor
        · rintro (hcovered | hsame)
          · exact ⟨hmethod, key, haddress,
              .inr (h.exists_put hcovered (Option.isSome_iff_exists.2 ⟨prior, hheld⟩))⟩
          · exact ⟨hmethod, key, haddress, .inl (hbody.trans hsame.symm)⟩
        · rintro ⟨-, key', haddress', hgood⟩
          obtain rfl := haddress.unique haddress'
          rcases hgood with hsame | ⟨w', hw', hput, haddress₂, hread⟩
          · exact .inr (hsame.symm.trans hbody)
          · rcases h.other_writes hw' with hfail | ⟨-, hcovers⟩
            · rw [hwrote.trace] at hfail
              rw [List.mem_singleton.1 hfail] at hread
              exact absurd hunread hread
            · obtain ⟨key', hcovered, haddress₃⟩ := hcovers hput
              obtain rfl := haddress₂.unique haddress₃
              exact .inl hcovered

/-! ## A create that stays behind -/

/-- The answers to writes that are promised: 2xx, and for a Private v2 create a bare array
or a single object. -/
def AnsweredInShape (w : Request × Response) : Prop :=
  200 ≤ w.2.status ∧ ∀ k : ResourceKind, w.1.method = .post → w.1.template = k.pathTemplate →
    k.surface = .privateV2 → ∃ raw, w.2.json = .ok raw ∧ (raw.asArray?.isSome ∨ raw.isObject)

/-- A client of one site that may use the private surfaces. -/
def policyClient : UnifiClient where
  controller :=
    ⟨"https://unifi.example.org", "default", some "UNIFI_API_KEY", none, none, true, false⟩
  expandPath _ _ := .ok "/proxy/network/v2/api/site/default/firewall-policies"

/-- The body of a policy that is staged. -/
def blockPolicy : Json := .obj [("name", .str "block")]

/-- The policy as the controller created it. -/
def createdPolicy : Json := .obj [("_id", .str "p1"), ("name", .str "block")]

/-- The one write of the run, answered with the single object that was created. -/
def policyWrite : Request × Response :=
  (requestOf policyClient .post ResourceKind.firewallPolicy.pathTemplate [("site", "default")] []
      (some blockPolicy) "/proxy/network/v2/api/site/default/firewall-policies",
    ⟨201, "\x7b\"_id\":\"p1\",\"name\":\"block\"\x7d", .ok createdPolicy⟩)

/-- A controller that holds nothing. -/
def emptyNetwork : Network := ⟨fun _ => none, none⟩

/-- The same controller with the policy. -/
def policyNetwork : Network :=
  ⟨Function.update (fun _ => none) (.firewallPolicy, "default", "p1") (some createdPolicy), none⟩

theorem policy_path :
    Path NetworkStep emptyNetwork [sendEvent policyWrite.1 (.ok policyWrite.2)] policyNetwork := by
  refine .cons ?_ .nil
  show Sent emptyNetwork policyWrite.1 (.ok policyWrite.2) policyNetwork
  rw [Sent, if_pos (show policyWrite.1.method.isWrite = true from rfl)]
  refine .inl ⟨_, rfl, by decide, ?_, rfl⟩
  refine ⟨.firewallPolicy, "default", "p1", createdPolicy, rfl, rfl, rfl, rfl, ?_⟩
  intro raw named hraw hnamed
  cases hraw
  cases hnamed

/-- The run: the create is performed, its answer is refused, and nothing is rolled back. -/
theorem policy_runs : ∃ o, (applyOver policyClient (.fromResources [])
    [.create "firewall_policy" blockPolicy]).Runs [sendEvent policyWrite.1 (.ok policyWrite.2)] o ∧
    o.state = .partialApply :=
  ⟨_, ⟨_, [], rfl, rfl, rfl⟩, rfl⟩

theorem policyNetwork_ne : policyNetwork.held ≠ emptyNetwork.held := by
  intro h
  have hkey := congrFun h (.firewallPolicy, "default", "p1")
  simp [policyNetwork, emptyNetwork] at hkey

theorem policy_plan :
    ∀ m ∈ [StagedMutation.create "firewall_policy" blockPolicy], m.IsCreateOrUpdate := by
  intro m hm
  rw [List.mem_singleton.1 hm]
  trivial

/-- In that run there is a write that nothing made good. -/
theorem partialApply_restores_iff_policy :
    ¬ ∀ w ∈ landed [sendEvent policyWrite.1 (.ok policyWrite.2)], Unread w →
      MadeGood emptyNetwork.held (landed [sendEvent policyWrite.1 (.ok policyWrite.2)]) w := by
  obtain ⟨o, hrun, ho⟩ := policy_runs
  rw [← partialApply_restores_iff policy_plan hrun ho policy_path]
  exact policyNetwork_ne

/-- A run can end `Partial` and leave a created policy behind, although the controller
answered the create in one of the two promised shapes. -/
theorem not_partialApply_restores :
    ¬ ∀ (c : UnifiClient) (preimage : Preimage) (mutations : List StagedMutation)
      (t : List (Event ClientSig)) (o : Outcome) (s s' : Network),
      (∀ m ∈ mutations, m.IsCreateOrUpdate) → (applyOver c preimage mutations).Runs t o →
      Path NetworkStep s t s' → (∀ w ∈ landed t, AnsweredInShape w) → o.state = .partialApply →
      s'.held = s.held := by
  intro h
  obtain ⟨o, hrun, ho⟩ := policy_runs
  refine policyNetwork_ne (h _ _ _ _ o _ _ policy_plan hrun policy_path ?_ ho)
  intro w hw
  obtain rfl : w = policyWrite := List.mem_singleton.1 hw
  exact ⟨by decide, fun k _ _ _ => ⟨createdPolicy, rfl, .inr rfl⟩⟩

end UnifiMcp

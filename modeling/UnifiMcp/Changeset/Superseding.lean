import UnifiMcp.Changeset.BearsOut
import UnifiMcp.Changeset.Drift
import UnifiMcp.Client.WriteSites

/-!
# Mutations that supersede one another

`verify_applied` walks a plan mutation by mutation, and what it compares each of them with is
the state that all of them have left behind.  So a mutation that a later one superseded is
judged by what the later one did: an update whose resource was deleted afterwards, or renamed
once more, is reported as not landed, however exactly the controller carried out both.

`applied_iff_compatible` says for which plans a controller that does all it is sent is believed:
any two mutations of one resource have to be borne out by one and the same state of it.
-/

namespace UnifiMcp

open Interaction Collections

/-! ## What the client sees -/

/-- The client may send the write of this mutation. -/
def Sendable (c : UnifiClient) : StagedMutation → Prop
  | .create kind _ => ∃ k : ResourceKind, k.IsZoneBased ∧ k.name = kind ∧
      UnifiClient.CanAddress c k k.pathTemplate [("site", c.controller.site)]
  | .update kind id _ | .delete kind id => ObedientController.Reachable c kind id
  | .restore _ => False

/-- The answers of a reader that sees `held`. -/
def viewing (held : Resources) : (op : FetchOp) → Unit → Except UnifiError (Option Json) × Unit :=
  fun op u => (.ok (held (op.kind, op.id)), u)

/-- All of these reads were answered with what is held. -/
def Truthful (held : Resources) (reads : List (Event FetchSig)) : Prop :=
  ∀ e ∈ reads, e.answer = .ok (held (e.op.kind, e.op.id))

/-- Two runs that see the same come to the same. -/
theorem Truthful.unique {held : Resources} {α : Type} {p : Program FetchSig α}
    {u u' : List (Event FetchSig)} {a a' : α} (h : Truthful held u) (hrun : p.Runs u a)
    (h' : Truthful held u') (hrun' : p.Runs u' a') : a = a' := by
  have hpath : ∀ {u : List (Event FetchSig)}, Truthful held u →
      Path (Answers (viewing held)) () u () := by
    intro u hu
    induction u with
    | nil => exact .nil
    | cons e u ih =>
        obtain ⟨he, hu⟩ := List.forall_mem_cons.1 hu
        exact .cons (show (_, ()) = (e.answer, ()) by rw [he]) (ih hu)
  have heval := Program.eval_eq_of_runs hrun (hpath h)
  rw [Program.eval_eq_of_runs hrun' (hpath h')] at heval
  exact (congrArg Prod.fst heval).symm

namespace ObedientController

open UnifiClient

variable {c : UnifiClient} {σ : Type} (C : ObedientController c σ) {s s' : σ}
  {t : List (Event ClientSig)}

/-- What a mutation did when it succeeded, and that it succeeds whenever what it updates is
there. -/
theorem applyMutation_gives {m : StagedMutation} (hm : Sendable c m)
    {r : Except UnifiError (Option String)} (h : (c.applyMutation m).Gives t r)
    (hpath : Path (Answers C.answer) s t s') :
    (∃ createdId, r = .ok createdId ∧ WriteEffect (C.held s) m createdId (C.held s') ∧
      ∀ kind body id, m = .create kind body → createdId = some id → Reachable c kind id) ∨
    ∃ kind id body, m = .update kind id body ∧ C.held s (kind, id) = none ∧ ∃ e, r = .error e := by
  have heval : Fallible.eval C.answer (c.applyMutation m) s = (r, t, s') :=
    Program.eval_eq_of_runs h hpath
  cases m with
  | create kind body =>
      obtain ⟨k, hk, rfl, haddress⟩ := hm
      obtain ⟨id, v, t', s₁, hcreate, hreach, hmade, hfresh, hheld⟩ :=
        C.create_obedient hk haddress body s
      cases hcreate.symm.trans heval
      refine .inl ⟨some id, rfl, ⟨hfresh, v, hmade, hheld⟩, ?_⟩
      rintro _ _ _ ⟨⟩ ⟨⟩
      exact hreach
  | update kind id body =>
      cases hcurrent : C.held s (kind, id) with
      | none =>
          obtain ⟨e, t', s₁, hmissing⟩ := C.update_missing hm hcurrent body
          cases hmissing.symm.trans heval
          exact .inr ⟨kind, id, body, rfl, hcurrent, e, rfl⟩
      | some current =>
          obtain ⟨t', s₁, hupdate, hheld⟩ := C.update_obedient hm hcurrent body
          cases hupdate.symm.trans heval
          exact .inl ⟨none, rfl, ⟨current, hcurrent, hheld⟩, nofun⟩
  | delete kind id =>
      obtain ⟨t', s₁, hdelete, hheld⟩ := C.delete_obedient hm s
      cases hdelete.symm.trans heval
      exact .inl ⟨none, rfl, hheld, nofun⟩
  | restore backupId => exact hm.elim

/-- The writes of a plan, as far as they succeeded. -/
theorem writeEffects_of_expands {done : List (StagedMutation × Option String)} {index : Nat}
    (hsend : ∀ d ∈ done, Sendable c d.1)
    (hexp : Program.Expands c.controllerOps (writeEvents index done) t)
    (hpath : Path (Answers C.answer) s t s') :
    WriteEffects (C.held s) done (C.held s') ∧
      ∀ kind body id, (.create kind body, some id) ∈ done → Reachable c kind id := by
  induction done generalizing index s t with
  | nil =>
      cases hexp
      rw [path_nil.1 hpath]
      exact ⟨.nil, by simp⟩
  | cons d done ih =>
      obtain ⟨m, createdId⟩ := d
      obtain ⟨hm, hdone⟩ := List.forall_mem_cons.1 hsend
      cases hexp with
      | @cons _ _ t₁ t₂ head tail =>
          obtain ⟨s₁, hpath₁, hpath₂⟩ := path_append.1 hpath
          obtain ⟨heffects, hreach⟩ := ih hdone tail hpath₂
          rcases C.applyMutation_gives hm head hpath₁ with
            ⟨r, hr, heffect, hid⟩ | ⟨_, _, _, -, -, e, he⟩
          · cases hr
            refine ⟨.cons heffect heffects, fun kind body id hmem => ?_⟩
            rcases List.mem_cons.1 hmem with heq | hmem
            · obtain ⟨rfl, rfl⟩ := Prod.mk.inj heq
              exact hid kind body id rfl rfl
            · exact hreach kind body id hmem
          · cases he

/-- Reads of resources the client may ask for show what is held, and leave it. -/
theorem truthful_of_expands {u : List (Event FetchSig)}
    (hreach : ∀ e ∈ u, Reachable c e.op.kind e.op.id) (hexp : Program.Expands c.fetchOps u t)
    (hpath : Path (Answers C.answer) s t s') :
    C.held s' = C.held s ∧ Truthful (C.held s) u := by
  induction hexp generalizing s with
  | nil => exact ⟨by rw [path_nil.1 hpath], by simp [Truthful]⟩
  | @cons e u t₁ t₂ head tail ih =>
      obtain ⟨hfirst, hrest⟩ := List.forall_mem_cons.1 hreach
      obtain ⟨s₁, hpath₁, hpath₂⟩ := path_append.1 hpath
      obtain ⟨t', s₂, hfetch, hheld⟩ := C.fetchResource_obedient hfirst s
      have heval : Fallible.eval C.answer (c.fetchResource e.op.kind e.op.id) s =
          (e.answer, t₁, s₁) := Program.eval_eq_of_runs head hpath₁
      obtain ⟨hanswer, hpair⟩ := Prod.mk.inj (heval.symm.trans hfetch)
      obtain ⟨-, rfl⟩ := Prod.mk.inj hpair
      obtain ⟨hsame, htrue⟩ := ih hrest hpath₂
      rw [hheld] at hsame htrue
      exact ⟨hsame, List.forall_mem_cons.2 ⟨hanswer, htrue⟩⟩

end ObedientController

/-! ## The plan and its start -/

/-- Every mutation of the plan is of a zone or of a zone-based policy. -/
def OfZones (mutations : List StagedMutation) : Prop :=
  ∀ m ∈ mutations, ∃ k : ResourceKind, k.IsZoneBased ∧ m.kind? = some k.name

/-- The client may use every path of the plan, and what the plan addresses is there as the
pre-image has it. -/
structure MatchingStart {c : UnifiClient} {σ : Type} (C : ObedientController c σ)
    (preimage : Preimage) (mutations : List StagedMutation) (s : σ) : Prop where
  creates : ∀ (k : ResourceKind) body, .create k.name body ∈ mutations →
    UnifiClient.CanAddress c k k.pathTemplate [("site", c.controller.site)]
  targets : ∀ m ∈ mutations, ∀ (k : ResourceKind) id, m.target = some (k.name, id) →
    UnifiClient.CanAddress c k k.singleResourceTemplate (c.oneParams id)
  recorded : ∀ m ∈ mutations, ∀ kind id, m.target = some (kind, id) →
    ∃ v, preimage.getResource id = some v ∧ C.held s (kind, id) = some v

section Start

open ObedientController

variable {c : UnifiClient} {σ : Type} {C : ObedientController c σ} {preimage : Preimage}
  {mutations : List StagedMutation} {s s' : σ} {t : List (Event ClientSig)}

theorem MatchingStart.reachable (h : MatchingStart C preimage mutations s)
    (hzones : OfZones mutations) {m : StagedMutation} (hm : m ∈ mutations) {kind id : String}
    (htarget : m.target = some (kind, id)) : Reachable c kind id := by
  obtain ⟨k, hk, hkind⟩ := hzones m hm
  obtain rfl : k.name = kind := by
    cases m with
    | create kind' body | restore backupId => cases htarget
    | update kind' id' body | delete kind' id' =>
        cases htarget
        exact (Option.some.inj hkind).symm
  exact ⟨k, hk, rfl, h.targets m hm k id htarget⟩

theorem MatchingStart.sendable (h : MatchingStart C preimage mutations s)
    (hzones : OfZones mutations) {m : StagedMutation} (hm : m ∈ mutations) : Sendable c m := by
  cases m with
  | create kind body =>
      obtain ⟨k, hk, hkind⟩ := hzones _ hm
      obtain rfl : kind = k.name := Option.some.inj hkind
      exact ⟨k, hk, rfl, h.creates k body hm⟩
  | update kind id body | delete kind id => exact h.reachable hzones hm rfl
  | restore backupId =>
      obtain ⟨k, -, hkind⟩ := hzones _ hm
      cases hkind

/-- The stale check passes. -/
theorem MatchingStart.check (h : MatchingStart C preimage mutations s)
    (hzones : OfZones mutations) {r : Except UnifiError Bool}
    (hrun : (c.controllerOps (.preimageMatches preimage mutations)).Runs t r)
    (hpath : Path (Answers C.answer) s t s') : r = .ok true ∧ C.held s' = C.held s := by
  obtain ⟨u, hu, hexp⟩ := (Program.runs_interpret _).1 hrun
  have hreach : ∀ e ∈ u, Reachable c e.op.kind e.op.id := by
    intro e he
    obtain ⟨m, hm, htarget⟩ := (asks_preimageMatches preimage mutations).of_mem hu e he
    exact h.reachable hzones hm htarget
  obtain ⟨hheld, htrue⟩ := C.truthful_of_expands hreach hexp hpath
  refine ⟨?_, hheld⟩
  -- The reads that would let it pass are truthful too.
  obtain ⟨reads, hmatches, hops⟩ := exists_matches preimage fun m hm kind id htarget => by
    obtain ⟨v, hv, -⟩ := h.recorded m hm kind id htarget
    rw [hv]
    rfl
  have htrue' : Truthful (C.held s) reads := by
    intro e he
    obtain ⟨m, hm, htarget, -⟩ := hops e he
    obtain ⟨v, hv, hlive⟩ := h.recorded m hm _ _ htarget
    obtain ⟨v', hv', hanswer⟩ := hmatches.of_mem he
    obtain rfl : v = v' := Option.some.inj (hv.symm.trans hv')
    rw [hanswer, hlive]
  exact htrue.unique hu htrue' (gives_preimageMatches_true.2 hmatches)

/-- Verification is content exactly when the final state bears every mutation out. -/
theorem verified_iff {createdIds : CreatedIds} {r : Except UnifiError Unit}
    (hrun : (c.controllerOps (.verifyApplied mutations createdIds)).Runs t r)
    (hpath : Path (Answers C.answer) s t s')
    (hreach : ∀ j m op, mutations[j]? = some m → readOf createdIds j m = some op →
      Reachable c op.kind op.id) :
    r = .ok () ↔ ∀ j m op, mutations[j]? = some m → readOf createdIds j m = some op →
      Accepts m (C.held s (op.kind, op.id)) := by
  obtain ⟨u, hu, hexp⟩ := (Program.runs_interpret _).1 hrun
  have hreads : ∀ e ∈ u, Reachable c e.op.kind e.op.id := by
    intro e he
    obtain ⟨j, m, hm, hop⟩ := (asks_verifyApplied mutations createdIds).of_mem hu e he
    exact hreach j m e.op hm hop
  obtain ⟨-, htrue⟩ := C.truthful_of_expands hreads hexp hpath
  constructor
  · rintro rfl j m op hm hop
    obtain ⟨live, -, haccepts, hmem⟩ :=
      (gives_verifyApplied_ok.1 hu).readBack hm ((Nat.zero_add j).symm ▸ hop)
    have hlive : (.ok live : Except UnifiError (Option Json)) = .ok (C.held s (op.kind, op.id)) :=
      htrue _ hmem
    rwa [← Except.ok.inj hlive]
  · intro haccepts
    let answers : Nat → Option Json := fun j =>
      ((mutations[j]?).bind (readOf createdIds j)).bind fun op => C.held s (op.kind, op.id)
    have hanswers : ∀ j m op, mutations[j]? = some m → readOf createdIds j m = some op →
        answers j = C.held s (op.kind, op.id) := by
      intro j m op hm hop
      show ((mutations[j]?).bind (readOf createdIds j)).bind _ = _
      rw [hm, Option.bind_some, hop, Option.bind_some]
    obtain ⟨reads, hconfirms, -, hops⟩ :=
      exists_confirms createdIds 0 mutations answers fun j m op hm hop => by
        rw [Nat.zero_add] at hop ⊢
        rw [hanswers j m op hm hop]
        exact haccepts j m op hm hop
    have htrue' : Truthful (C.held s) reads := by
      intro e he
      obtain ⟨j, m, hm, hop, hanswer⟩ := hops e he
      rw [Nat.zero_add] at hop hanswer
      rw [hanswer, hanswers j m e.op hm hop]
    exact htrue.unique hu htrue' (gives_verifyApplied_ok.2 hconfirms)

end Start

/-! ## The ids a controller gives -/

/-- A create was carried out, and its answer names this kind and id. -/
def CreatedIn (t : List (Event ClientSig)) (kind id : String) : Prop :=
  ∃ (k : ResourceKind) (request : Request) (response : Response) (raw : Json), k.name = kind ∧
    sendEvent request (.ok response) ∈ t ∧ request.method = .post ∧
    request.template = k.pathTemplate ∧ response.status < 300 ∧ response.json = .ok raw ∧
    createdIdOf k.surface kind raw = .ok id

/-- A question that is not a create. -/
def ClientOp.NotPost : ClientOp → Prop
  | .send request => request.method ≠ .post
  | _ => True

theorem ClientOp.Quiet.notPost {op : ClientOp} (h : op.Quiet) : op.NotPost := by
  cases op with
  | send request =>
      intro hpost
      have hread : request.method.isWrite = false := h
      rw [hpost] at hread
      cases hread
  | cachedSiteUuid | cacheSiteUuid uuid | cachedVersion | cacheVersion version => trivial

section Created

open UnifiClient

variable {c : UnifiClient} {t t' : List (Event ClientSig)} {kind id : String}

theorem createdIn_append :
    CreatedIn (t ++ t') kind id ↔ CreatedIn t kind id ∨ CreatedIn t' kind id := by
  constructor
  · rintro ⟨k, request, response, raw, hk, hmem, hrest⟩
    rcases List.mem_append.1 hmem with hmem | hmem
    · exact .inl ⟨k, request, response, raw, hk, hmem, hrest⟩
    · exact .inr ⟨k, request, response, raw, hk, hmem, hrest⟩
  · rintro (⟨k, request, response, raw, hk, hmem, hrest⟩ |
      ⟨k, request, response, raw, hk, hmem, hrest⟩)
    · exact ⟨k, request, response, raw, hk, List.mem_append_left _ hmem, hrest⟩
    · exact ⟨k, request, response, raw, hk, List.mem_append_right _ hmem, hrest⟩

theorem not_createdIn (h : ∀ e ∈ t, ClientOp.NotPost e.op) : ¬ CreatedIn t kind id := by
  rintro ⟨k, request, response, raw, -, hmem, hpost, -⟩
  exact h _ hmem hpost

/-- Only a create creates. -/
theorem asks_notPost_applyMutation {m : StagedMutation} (hm : ∀ kind body, m ≠ .create kind body) :
    (c.applyMutation m).Asks ClientOp.NotPost := by
  have hreads : c.AsksReads ClientOp.NotPost := asksReads_quiet.mono fun _ hop => hop.notPost
  refine applyMutation_of (fun x => x.Asks _) (fun _ => Fallible.asks_throw _) fun w hw => ?_
  refine hreads.write fun k site body _ _ => ?_
  refine asks_request (fun _ hpost => ?_) fun _ hop => hop.quiet.notPost
  obtain ⟨kind, body, heq⟩ := hw.post hpost
  exact hm kind body heq

/-- A mutation that succeeded was given an id by the controller if and only if it is a create
that reported that id. -/
theorem createdIn_of_gives {m : StagedMutation} {createdId : Option String}
    (h : (c.applyMutation m).Gives t (.ok createdId)) :
    CreatedIn t kind id ↔ ∃ body, m = .create kind body ∧ createdId = some id := by
  by_cases hm : ∃ kind' body, m = .create kind' body
  · obtain ⟨kind', body, rfl⟩ := hm
    obtain ⟨k, t₁, t₂, site, raw, id', rfl, rfl, hsite, hpost, hid, rfl⟩ :=
      gives_applyMutation_create h
    obtain ⟨path, response, -, -, hstatus, hjson, rfl⟩ := gives_request_ok hpost
    have hquiet : ¬ CreatedIn t₁ kind id :=
      not_createdIn fun e he => ((asks_defaultSiteFor _).of_mem hsite e he).notPost
    rw [createdIn_append]
    constructor
    · rintro (hfirst | ⟨k', request, response', raw', rfl, hmem, -, htemplate, -, hjson', hid'⟩)
      · exact absurd hfirst hquiet
      · cases List.mem_singleton.1 hmem
        obtain rfl : k = k' := ResourceKind.pathTemplate_injective htemplate
        obtain rfl : raw = raw' := Except.ok.inj (hjson.symm.trans hjson')
        obtain rfl : id' = id := Except.ok.inj (hid.symm.trans hid')
        exact ⟨body, rfl, rfl⟩
    · rintro ⟨body', heq, hsome⟩
      cases heq
      cases hsome
      exact .inr ⟨k, _, response, raw, rfl, List.mem_cons_self, rfl, rfl, hstatus, hjson, hid⟩
  · have hnot : ∀ kind body, m ≠ .create kind body := fun kind' body heq => hm ⟨kind', body, heq⟩
    constructor
    · intro hcreated
      exact absurd hcreated (not_createdIn ((asks_notPost_applyMutation hnot).of_mem h))
    · rintro ⟨body, rfl, -⟩
      exact absurd rfl (hnot kind body)

/-- The ids given while a plan is written are those its creates reported. -/
theorem createdIn_writes {done : List (StagedMutation × Option String)} {index : Nat}
    (hexp : Program.Expands c.controllerOps (writeEvents index done) t) :
    CreatedIn t kind id ↔ ∃ body, (.create kind body, some id) ∈ done := by
  induction done generalizing index t with
  | nil =>
      cases hexp
      constructor
      · intro h
        exact absurd h (not_createdIn (by simp))
      · rintro ⟨body, hmem⟩
        cases hmem
  | cons d done ih =>
      obtain ⟨m, createdId⟩ := d
      cases hexp with
      | @cons _ _ t₁ t₂ head tail =>
          have hfirst : CreatedIn t₁ kind id ↔ _ := createdIn_of_gives head
          rw [createdIn_append, hfirst, ih tail]
          simp only [List.mem_cons, Prod.mk.injEq, exists_or, eq_comm]

/-- Neither the stale check nor the verification creates anything. -/
theorem not_createdIn_of_reads {α : Type} {p : FetchM α} {P : FetchOp → Prop} (hp : p.Asks P)
    {a : Except UnifiError α} (h : (Program.interpret c.fetchOps p.run).Runs t a) :
    ¬ CreatedIn t kind id := by
  have hquiet : (Program.interpret c.fetchOps p.run).Asks ClientOp.Quiet :=
    Program.Asks.interpret hp fun op _ => asks_fetchResource op.kind op.id
  exact not_createdIn fun e he => (hquiet.of_mem h e he).notPost

end Created

/-! ## The whole apply -/

/-- No create was given an id that the plan deletes. -/
def GivesNewIds (mutations : List StagedMutation) (t : List (Event ClientSig)) : Prop :=
  ∀ kind id, CreatedIn t kind id → .delete kind id ∉ mutations

section Whole

open ObedientController

variable {c : UnifiClient} {σ : Type} {C : ObedientController c σ} {preimage : Preimage}
  {mutations : List StagedMutation} {s s' : σ} {t : List (Event ClientSig)}

/-- What is recorded of the resources a plan addresses are objects. -/
theorem MatchingStart.objects (h : MatchingStart C preimage mutations s) {m : StagedMutation}
    (hm : m ∈ mutations) {target : String × String} (htarget : m.target = some target) :
    ∃ v, C.held s target = some v ∧ v.isObject = true := by
  obtain ⟨v, hv, hlive⟩ := h.recorded m hm target.1 target.2 htarget
  refine ⟨v, hlive, ?_⟩
  have hid := Preimage.getResource_id hv
  cases v with
  | obj fields => rfl
  | null | bool _ | num _ | str _ | arr _ => cases hid

/-- The bodies an accepted plan stages are objects. -/
theorem objectBodies_of_checked {number : Number → String}
    (h : checkWritableFields number mutations = .ok ())
    (hascending : ∀ kind id fields, .update kind id (.obj fields) ∈ mutations → Ascending fields) :
    ObjectBodies mutations := by
  intro kind id body hm
  obtain ⟨_, _, -, -, hbody⟩ := checkWritable_ok (checkWritable_of_mem h hm) rfl
  obtain ⟨fields, rfl, -⟩ := hbody body rfl
  exact ⟨fields, rfl, hascending kind id fields hm⟩

/-- Every write succeeds: only the update of a resource that an earlier mutation deleted could
fail. -/
theorem MatchingStart.not_failed (h : MatchingStart C preimage mutations s)
    (hzones : OfZones mutations) {done : List (StagedMutation × Option String)}
    {m : StagedMutation} {rest : List StagedMutation} {held : Resources} {s₁ : σ}
    (hsplit : mutations = done.map Prod.fst ++ m :: rest)
    (hcompatible : ∀ m ∈ mutations, ∀ m' ∈ mutations, Compatible m m')
    (hheld : C.held s = held) (heffects : WriteEffects held done (C.held s₁)) {e : UnifiError}
    (hrun : (c.applyMutation m).Gives t (.error e)) (hpath : Path (Answers C.answer) s₁ t s') :
    False := by
  have hm : m ∈ mutations := by simp [hsplit]
  rcases C.applyMutation_gives (h.sendable hzones hm) hrun hpath with
    ⟨createdId, hr, -⟩ | ⟨kind, id, body, rfl, hnone, -⟩
  · cases hr
  · obtain ⟨v, hv, -⟩ := h.objects hm rfl
    rw [hheld] at hv
    obtain ⟨live, hlive, -⟩ := heffects.keeps (P := fun _ => True)
      (fun d hd heq => by
        have hd' : d.1 ∈ mutations := by
          rw [hsplit]
          exact List.mem_append_left _ (List.mem_map_of_mem hd)
        have hboth := (hcompatible _ hm _ hd' (kind, id) rfl (by rw [heq]; rfl)).1
        rw [heq] at hboth
        cases hboth)
      (fun _ _ _ _ _ _ => trivial) ⟨v, hv, trivial⟩
    cases hnone.symm.trans hlive

/-- A create is read back under the id it was given. -/
theorem readOf_create {done : List (StagedMutation × Option String)} {j : Nat} {kind id : String}
    {body : Json} (hj : done[j]? = some (.create kind body, some id)) :
    readOf (CreatedIds.recordAll [] 0 done) j (.create kind body) = some ⟨kind, id⟩ := by
  have hlookup := CreatedIds.lookup_recordAll [] 0 done hj
  rw [Nat.zero_add] at hlookup
  rw [readOf, hlookup]
  rfl

/-- A verification reads the targets of the plan and what the plan created. -/
theorem WriteEffects.of_readOf {held held' : Resources}
    {done : List (StagedMutation × Option String)} (h : WriteEffects held done held') {j : Nat}
    {m : StagedMutation} {op : FetchOp} (hm : (done.map Prod.fst)[j]? = some m)
    (hop : readOf (CreatedIds.recordAll [] 0 done) j m = some op) :
    m.target = some (op.kind, op.id) ∨
      ∃ body, m = .create op.kind body ∧ (.create op.kind body, some op.id) ∈ done := by
  cases m with
  | update kind id body | delete kind id =>
      cases hop
      exact .inl rfl
  | restore backupId => cases hop
  | create kind body =>
      rw [List.getElem?_map, Option.map_eq_some_iff] at hm
      obtain ⟨⟨m', createdId⟩, hj, rfl⟩ := hm
      have hmem := List.mem_of_getElem? hj
      obtain ⟨_, _, _, _, -, -, -, head, -⟩ := h.split hmem
      cases createdId with
      | none => exact head.elim
      | some id =>
          cases (readOf_create hj).symm.trans hop
          exact .inr ⟨body, rfl, hmem⟩

/-- The mutations of a plan whose reads all accept are compatible, and it deletes nothing it
created. -/
theorem compatible_of_reads {held : Resources} {done : List (StagedMutation × Option String)}
    (h : ∀ j m op, (done.map Prod.fst)[j]? = some m →
      readOf (CreatedIds.recordAll [] 0 done) j m = some op → Accepts m (held (op.kind, op.id))) :
    (∀ m ∈ done.map Prod.fst, ∀ m' ∈ done.map Prod.fst, Compatible m m') ∧
      ∀ kind body id, (.create kind body, some id) ∈ done →
        .delete kind id ∉ done.map Prod.fst := by
  have htargets : ∀ m ∈ done.map Prod.fst, ∀ target, m.target = some target →
      Accepts m (held target) := by
    rintro m hm ⟨kind, id⟩ htarget
    obtain ⟨j, hj⟩ := List.mem_iff_getElem?.1 hm
    refine h j m ⟨kind, id⟩ hj ?_
    cases m with
    | create kind' body | restore backupId => cases htarget
    | update kind' id' body | delete kind' id' =>
        cases htarget
        rfl
  refine ⟨fun m hm m' hm' => compatible_of_accepts (htargets m hm) (htargets m' hm'), ?_⟩
  intro kind body id hmem hdelete
  obtain ⟨j, hj⟩ := List.mem_iff_getElem?.1 hmem
  have hthere : Accepts (.create kind body) (held (kind, id)) :=
    h j (.create kind body) ⟨kind, id⟩ (by rw [List.getElem?_map, hj]; rfl) (readOf_create hj)
  have hgone : Accepts (.delete kind id) (held (kind, id)) := htargets _ hdelete (kind, id) rfl
  cases hlive : held (kind, id) with
  | none =>
      rw [hlive] at hthere
      exact hthere.elim
  | some live =>
      rw [hlive] at hgone
      exact hgone.elim

/-- A plan that was written in full is confirmed exactly when its mutations can all be borne
out. -/
theorem MatchingStart.verified_iff (h : MatchingStart C preimage mutations s)
    (hzones : OfZones mutations) (hbodies : ObjectBodies mutations)
    {done : List (StagedMutation × Option String)} (hdone : mutations = done.map Prod.fst)
    {held : Resources} {s₁ : σ} (hheld : C.held s = held)
    (heffects : WriteEffects held done (C.held s₁))
    (hcreated : ∀ kind body id, (.create kind body, some id) ∈ done → Reachable c kind id)
    {r : Except UnifiError Unit}
    (hrun : (c.controllerOps
      (.verifyApplied mutations (CreatedIds.recordAll [] 0 done))).Runs t r)
    (hpath : Path (Answers C.answer) s₁ t s') :
    r = .ok () ↔ (∀ m ∈ mutations, ∀ m' ∈ mutations, Compatible m m') ∧
      ∀ kind body id, (.create kind body, some id) ∈ done → .delete kind id ∉ mutations := by
  subst hheld hdone
  rw [UnifiMcp.verified_iff hrun hpath fun j m op hm hop => by
    rcases heffects.of_readOf hm hop with htarget | ⟨body, -, hmem⟩
    · exact h.reachable hzones (List.mem_of_getElem? hm) htarget
    · exact hcreated op.kind body op.id hmem]
  refine ⟨compatible_of_reads, ?_⟩
  rintro ⟨hcompatible, hnew⟩
  obtain ⟨htargets, hthere⟩ := heffects.bears_out hbodies
    (fun d hd target htarget => h.objects (List.mem_map_of_mem hd) htarget)
    (fun d hd d' hd' => hcompatible _ (List.mem_map_of_mem hd) _ (List.mem_map_of_mem hd'))
    (fun kind body id hmem d hd heq =>
      hnew kind body id hmem (heq ▸ List.mem_map_of_mem hd))
  intro j m op hm hop
  rcases heffects.of_readOf hm hop with htarget | ⟨body, rfl, hmem⟩
  · obtain ⟨d, hd, rfl⟩ := List.mem_map.1 (List.mem_of_getElem? hm)
    exact htargets d hd _ htarget
  · obtain ⟨live, hlive⟩ := Option.isSome_iff_exists.1 (hthere op.kind body op.id hmem)
    rw [hlive]
    trivial

/-- The ids given in a run that wrote its plan in full are those its creates reported. -/
theorem givesNewIds_iff {done : List (StagedMutation × Option String)} {createdIds : CreatedIds}
    {t₁ t₂ t₃ : List (Event ClientSig)} {r : Except UnifiError Bool}
    {verified : Except UnifiError Unit}
    (hcheck : (c.controllerOps (.preimageMatches preimage mutations)).Runs t₁ r)
    (hwrites : Program.Expands c.controllerOps (writeEvents 0 done) t₂)
    (hverify : (c.controllerOps (.verifyApplied mutations createdIds)).Runs t₃ verified) :
    GivesNewIds mutations (t₁ ++ (t₂ ++ t₃)) ↔ ∀ kind body id,
      (.create kind body, some id) ∈ done → .delete kind id ∉ mutations := by
  have hcreated : ∀ kind id, CreatedIn (t₁ ++ (t₂ ++ t₃)) kind id ↔
      ∃ body, (.create kind body, some id) ∈ done := by
    intro kind id
    have hfirst : ¬ CreatedIn t₁ kind id :=
      not_createdIn_of_reads (asks_preimageMatches preimage mutations) hcheck
    have hlast : ¬ CreatedIn t₃ kind id :=
      not_createdIn_of_reads (asks_verifyApplied mutations createdIds) hverify
    rw [createdIn_append, createdIn_append, createdIn_writes hwrites]
    simp [hfirst, hlast]
  constructor
  · intro hnew kind body id hmem
    exact hnew kind id ((hcreated kind id).2 ⟨body, hmem⟩)
  · intro hnew kind id hgiven
    obtain ⟨body, hmem⟩ := (hcreated kind id).1 hgiven
    exact hnew kind body id hmem

/-- **When an obedient controller is believed.** -/
theorem applied_of_runs_iff (hzones : OfZones mutations) (hbodies : ObjectBodies mutations)
    (h : MatchingStart C preimage mutations s) {o : Outcome}
    (hrun : (applyOver c preimage mutations).Runs t o) (hpath : Path (Answers C.answer) s t s') :
    o.state = .applied ↔ (∀ m ∈ mutations, ∀ m' ∈ mutations, Compatible m m') ∧
      GivesNewIds mutations t := by
  obtain ⟨u, hu, hexp⟩ := (Program.runs_interpret _).1 hrun
  cases applyRun_of_runs hu with
  | refused r stale =>
      cases hexp with
      | cons head tail =>
          obtain ⟨s₁, hpath₁, -⟩ := path_append.1 hpath
          exact absurd (h.check hzones head hpath₁).1 stale
  | failed done m rest e split rollback failures rolled =>
      refine iff_of_false ?_ fun hborne => ?_
      · dsimp only
        split_ifs <;> decide
      · cases hexp with
        | cons hcheck tail =>
            obtain ⟨s₁, hpath₁, hpathTail⟩ := path_append.1 hpath
            obtain ⟨t₂, t₃, rfl, hwrites, hrest⟩ := Program.expands_append.1 tail
            obtain ⟨s₂, hpath₂, hpathRest⟩ := path_append.1 hpathTail
            cases hrest with
            | cons hfail _ =>
                obtain ⟨s₃, hpath₃, -⟩ := path_append.1 hpathRest
                have hsend : ∀ d ∈ done, Sendable c d.1 := fun d hd => by
                  refine h.sendable hzones ?_
                  rw [split]
                  exact List.mem_append_left _ (List.mem_map_of_mem hd)
                exact h.not_failed hzones split hborne.1 (h.check hzones hcheck hpath₁).2.symm
                  (C.writeEffects_of_expands hsend hwrites hpath₂).1 hfail hpath₃
  | written done whole verified =>
      cases hexp with
      | cons hcheck tail =>
          obtain ⟨s₁, hpath₁, hpathTail⟩ := path_append.1 hpath
          obtain ⟨t₂, t₃, rfl, hwrites, hrest⟩ := Program.expands_append.1 tail
          obtain ⟨s₂, hpath₂, hpath₃⟩ := path_append.1 hpathTail
          cases hrest with
          | cons hverify hnil =>
              cases hnil
              rw [List.append_nil] at hpath₃ ⊢
              have hsend : ∀ d ∈ done, Sendable c d.1 := fun d hd =>
                h.sendable hzones (whole ▸ List.mem_map_of_mem hd)
              obtain ⟨heffects, hcreated⟩ := C.writeEffects_of_expands hsend hwrites hpath₂
              have hverified := h.verified_iff hzones hbodies whole
                (h.check hzones hcheck hpath₁).2.symm heffects hcreated hverify hpath₃
              have hids := givesNewIds_iff hcheck hwrites hverify
              rw [hids, ← hverified]
              cases verified with
              | ok u => simp
              | error e => simp

/-- **When an apply over an obedient controller reports `Applied`.**  Exactly when any two
mutations of the plan are compatible and the controller gives no create an id that the plan
deletes. -/
theorem applied_iff_compatible (C : ObedientController c σ) {number : Number → String}
    (hchecked : checkWritableFields number mutations = .ok ()) (hzones : OfZones mutations)
    (hascending : ∀ kind id fields, .update kind id (.obj fields) ∈ mutations → Ascending fields)
    (hstart : MatchingStart C preimage mutations s) :
    ((applyOver c preimage mutations).eval C.answer s).1.state = .applied ↔
      (∀ m ∈ mutations, ∀ m' ∈ mutations, Compatible m m') ∧
        GivesNewIds mutations ((applyOver c preimage mutations).eval C.answer s).2.1 :=
  applied_of_runs_iff hzones (objectBodies_of_checked hchecked hascending) hstart
    ((applyOver c preimage mutations).eval_runs C.answer s)
    ((applyOver c preimage mutations).eval_path C.answer s)

end Whole

/-! ## A policy that is renamed -/

/-- A policy. -/
def sshPolicy : Json := .obj [("_id", .str "p1"), ("name", .str "ssh")]

/-- The shelf that holds it and nothing else. -/
def sshShelf : Shelf where
  held := Function.update (fun _ => none) ("firewall_policy", "p1") (some sshPolicy)
  longest := 2
  bounded kind id hlong := by
    refine Function.update_of_ne ?_ _ _
    rintro ⟨⟩
    exact absurd hlong (by decide)

/-- The controller with that shelf. -/
def sshController : ObedientController siteClient Shelf :=
  Shelf.controller siteClient fun _ _ => ⟨_, rfl⟩

/-- An update of the policy's name. -/
def renameTo (name : String) : StagedMutation :=
  .update "firewall_policy" "p1" (.obj [("name", .str name)])

/-- The policy is renamed, and then switched on. -/
def renameAndEnable : List StagedMutation :=
  [renameTo "http", .update "firewall_policy" "p1" (.obj [("enabled", .bool true)])]

section Ssh

variable {mutations : List StagedMutation}

theorem ofZones_ssh (h : ∀ m ∈ mutations, m.target = some ("firewall_policy", "p1")) :
    OfZones mutations := by
  intro m hm
  have htarget := h m hm
  refine ⟨.firewallPolicy, .inr rfl, ?_⟩
  cases m with
  | create kind body | restore backupId => cases htarget
  | update kind id body | delete kind id =>
      cases htarget
      rfl

theorem matchingStart_ssh (h : ∀ m ∈ mutations, m.target = some ("firewall_policy", "p1")) :
    MatchingStart sshController (.fromResources [sshPolicy]) mutations sshShelf := by
  refine ⟨fun k body hm => ?_, fun m hm k id _ => ?_, fun m hm kind id htarget => ?_⟩
  · cases h _ hm
  · exact ⟨by cases k <;> rfl, _, rfl⟩
  · cases (h m hm).symm.trans htarget
    exact ⟨sshPolicy, rfl, rfl⟩

/-- Updates of that policy are an accepted plan. -/
theorem checked_renamings (number : Number → String) (names : List String) :
    checkWritableFields number (names.map renameTo) = .ok () := by
  induction names with
  | nil => rfl
  | cons name names ih => exact ih

end Ssh

/-- The new name is confirmed. -/
theorem applied_iff_compatible_renameAndEnable :
    ((applyOver siteClient (.fromResources [sshPolicy]) renameAndEnable).eval
      sshController.answer sshShelf).1.state = .applied := by
  have htarget : ∀ m ∈ renameAndEnable, m.target = some ("firewall_policy", "p1") := by
    intro m hm
    rcases List.mem_pair.1 hm with rfl | rfl <;> rfl
  have hchecked : checkWritableFields (fun _ => "") renameAndEnable = .ok () := rfl
  refine (applied_iff_compatible sshController hchecked (ofZones_ssh htarget) ?_
    (matchingStart_ssh htarget)).2 ⟨?_, ?_⟩
  · intro kind id fields hm
    rcases List.mem_pair.1 hm with h | h <;> cases h <;> exact List.pairwise_singleton _ _
  · have hnamed : ∀ m ∈ renameAndEnable, m.isDelete = false ∧
        ∀ name, m.stagedName = some name → name = .str "http" := by
      intro m hm
      rcases List.mem_pair.1 hm with rfl | rfl
      · exact ⟨rfl, fun name hname => (Option.some.inj hname).symm⟩
      · exact ⟨rfl, fun name hname => by cases hname⟩
    intro m hm m' hm' target _ _
    obtain ⟨hdelete, hname⟩ := hnamed m hm
    obtain ⟨hdelete', hname'⟩ := hnamed m' hm'
    refine ⟨hdelete.trans hdelete'.symm, fun name name' h h' => ?_⟩
    exact (hname name h).trans (hname' name' h').symm
  · intro kind id _ hmem
    rcases List.mem_pair.1 hmem with h | h <;> cases h

/-- **A confirmed name can still be reported as missing.**  The policy is renamed twice, each
time exactly as sent, and the first name is not found in the end. -/
theorem not_applied_of_obedient :
    ¬ ∀ (c : UnifiClient) (σ : Type) (C : ObedientController c σ) (number : Number → String)
      (preimage : Preimage) (mutations : List StagedMutation) (s : σ),
      checkWritableFields number mutations = .ok () → OfZones mutations →
      (∀ kind id fields, .update kind id (.obj fields) ∈ mutations → Ascending fields) →
      MatchingStart C preimage mutations s →
      ((applyOver c preimage mutations).eval C.answer s).1.state = .applied := by
  intro h
  have htarget : ∀ m ∈ [renameTo "http", renameTo "https"],
      m.target = some ("firewall_policy", "p1") := by
    intro m hm
    rcases List.mem_pair.1 hm with rfl | rfl <;> rfl
  have hascending : ∀ kind id fields,
      .update kind id (.obj fields) ∈ [renameTo "http", renameTo "https"] → Ascending fields := by
    intro kind id fields hm
    rcases List.mem_pair.1 hm with h | h <;> cases h <;> exact List.pairwise_singleton _ _
  have hchecked := checked_renamings (fun _ => "") ["http", "https"]
  have hstart := matchingStart_ssh htarget
  have happlied := h siteClient Shelf sshController _ _ _ _ hchecked (ofZones_ssh htarget)
    hascending hstart
  obtain ⟨hcompatible, -⟩ := (applied_of_runs_iff (ofZones_ssh htarget)
    (objectBodies_of_checked hchecked hascending) hstart
    (Program.eval_runs (applyOver siteClient (.fromResources [sshPolicy])
      [renameTo "http", renameTo "https"]) sshController.answer sshShelf)
    (Program.eval_path (applyOver siteClient (.fromResources [sshPolicy])
      [renameTo "http", renameTo "https"]) sshController.answer sshShelf)).1 happlied
  have hnames := (hcompatible (renameTo "http") (by simp) (renameTo "https") (by simp) _ rfl rfl).2
    _ _ rfl rfl
  exact absurd hnames (by decide)

end UnifiMcp

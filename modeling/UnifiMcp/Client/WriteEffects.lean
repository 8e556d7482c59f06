import UnifiMcp.Client.KindWrites

/-!
# What a client method does to the controller

A create or an update sends at most one write request, after questions that write
nothing.  `mutation_effect` says how `apply_mutation` can go: it writes nothing and
fails, or its write is performed, and then it succeeds exactly when the answer could be
read.  `rollback_effect` says that a rollback that succeeded has put the prior value back.
-/

namespace UnifiMcp

open Interaction

namespace UnifiClient

variable {c : UnifiClient} {s s' : Network} {t : List (Event ClientSig)}

/-! ## One write request -/

/-- Nothing was written. -/
def Idle (s : Network) (t : List (Event ClientSig)) (s' : Network) : Prop :=
  landed t = [] ∧ s'.held = s.held

theorem idle_of_asks {α : Type} {x : ClientM α} (hx : x.Asks ClientOp.Quiet)
    {r : Except UnifiError α} (h : x.Gives t r) (hpath : Path NetworkStep s t s') :
    Idle s t s' := by
  have hlanded := landed_eq_nil (hx.of_mem h)
  exact ⟨hlanded, held_of_landed_eq_nil hpath hlanded⟩

/-- A write request is performed or leaves everything as it was, and when it was
performed its result is the answer read as JSON. -/
theorem write_of_gives {method : Method} (hm : method.isWrite = true) {surface : ApiSurface}
    {template : String} {params query : List (String × String)} {body : Option Json}
    {r : Except UnifiError Json}
    (h : (c.request method surface template params query body).Gives t r)
    (hpath : Path NetworkStep s t s') :
    (Idle s t s' ∧ ∃ e, r = .error e) ∨
      ∃ path response,
        landed t = [(requestOf c method template params query body path, response)] ∧
        Performs s.held (requestOf c method template params query body path) response s'.held ∧
        r = response.json.mapError .malformed := by
  cases requestRun_of_gives h with
  | notPermitted e hp => exact .inl ⟨⟨rfl, (path_nil.1 hpath) ▸ rfl⟩, e, rfl⟩
  | notExpanded message hx => exact .inl ⟨⟨rfl, (path_nil.1 hpath) ▸ rfl⟩, _, rfl⟩
  | transport path e => exact .inl ⟨⟨rfl, held_of_landed_eq_nil hpath rfl⟩, _, rfl⟩
  | rejected path response hstatus rest e report =>
      have hrest := landed_eq_nil fun e he =>
        ((gives_handleErrorResponse report).1 e he).quiet
      have hnone : landed (sendEvent (requestOf c method template params query body path)
          (.ok response) :: rest) = [] := by
        rw [← List.singleton_append, landed_append, hrest]
        simp [landed, landedOf, sendEvent, Nat.not_lt.2 hstatus]
      exact .inl ⟨⟨hnone, held_of_landed_eq_nil hpath hnone⟩, e, rfl⟩
  | landed path response hp hx hstatus =>
      refine .inr ⟨path, response, ?_, ?_, rfl⟩
      · simp [landed, landedOf, sendEvent, requestOf, hm, hstatus]
      · obtain ⟨s₁, hsent, hnil⟩ := path_cons.1 hpath
        obtain rfl := path_nil.1 hnil
        have hsent : Sent s (requestOf c method template params query body path) (.ok response)
            s₁ := hsent
        rw [Sent, if_pos (show (requestOf c method template params query body
          path).method.isWrite = true from hm)] at hsent
        rcases hsent with ⟨response', heq, -, hperforms, -⟩ | ⟨hrefused, -⟩
        · cases heq
          exact hperforms
        · exact absurd (hrefused response rfl) (Nat.not_le.2 hstatus)

/-- A PUT of a resource that was performed. -/
structure PutDone (s : Network) (t : List (Event ClientSig)) (s' : Network) (key : Key)
    (body : Json) (w : Request × Response) : Prop where
  trace : landed t = [w]
  method : w.1.method = .put
  address : w.1.At key
  sent : w.1.body = some body
  held : s'.held = Function.update s.held key (some body)

theorem put_effect {k : ResourceKind} {site id : String} {body : Json}
    {r : Except UnifiError Json}
    (h : (c.put k.surface k.singleResourceTemplate [("site", site), ("id", id)] [] body).Gives t r)
    (hpath : Path NetworkStep s t s') :
    (Idle s t s' ∧ ∃ e, r = .error e) ∨
      ∃ w, PutDone s t s' (k, site, id) body w ∧ r = w.2.json.mapError .malformed := by
  rcases write_of_gives rfl h hpath with hidle | ⟨path, response, htrace, hperforms, hr⟩
  · exact .inl hidle
  · obtain ⟨key, body', haddress, hbody, hheld⟩ := hperforms
    obtain rfl : key = (k, site, id) := haddress.unique ⟨rfl, rfl⟩
    cases hbody
    exact .inr ⟨_, ⟨htrace, rfl, haddress, rfl, hheld⟩, hr⟩

/-- A create that was performed. -/
structure PostDone (s : Network) (t : List (Event ClientSig)) (s' : Network) (key : Key)
    (v : Json) (w : Request × Response) : Prop where
  trace : landed t = [w]
  method : w.1.method = .post
  template : w.1.template = key.1.pathTemplate
  fresh : s.held key = none
  held : s'.held = Function.update s.held key (some v)
  named : ∀ raw named, w.2.json = .ok raw → createdIdOf key.1.surface key.1.name raw = .ok named →
    named = key.2.2

theorem post_effect {k : ResourceKind} {site : String} {body : Json}
    {r : Except UnifiError Json}
    (h : (c.post k.surface k.pathTemplate [("site", site)] [] body).Gives t r)
    (hpath : Path NetworkStep s t s') :
    (Idle s t s' ∧ ∃ e, r = .error e) ∨
      ∃ id v w, PostDone s t s' (k, site, id) v w ∧ r = w.2.json.mapError .malformed := by
  rcases write_of_gives rfl h hpath with hidle | ⟨path, response, htrace, hperforms, hr⟩
  · exact .inl hidle
  · obtain ⟨k', site', id, v, htemplate, hparams, hfresh, hheld, hnamed⟩ := hperforms
    obtain rfl : k = k' := ResourceKind.pathTemplate_injective htemplate
    obtain rfl : site = site' := by simpa [requestOf] using hparams
    exact .inr ⟨id, v, _, ⟨htrace, rfl, rfl, hfresh, hheld, hnamed⟩, hr⟩

theorem delete_effect {k : ResourceKind} {site id : String} {r : Except UnifiError Json}
    (h : (c.delete k.surface k.singleResourceTemplate [("site", site), ("id", id)] []).Gives t r)
    (hpath : Path NetworkStep s t s') :
    (Idle s t s' ∧ ∃ e, r = .error e) ∨
      ∃ w, landed t = [w] ∧ w.1.method = .delete ∧
        s'.held = Function.update s.held (k, site, id) none ∧
        r = w.2.json.mapError .malformed := by
  rcases write_of_gives rfl h hpath with hidle | ⟨path, response, htrace, hperforms, hr⟩
  · exact .inl hidle
  · obtain ⟨key, haddress, hheld⟩ := hperforms
    obtain rfl : key = (k, site, id) := haddress.unique ⟨rfl, rfl⟩
    exact .inr ⟨_, htrace, rfl, hheld, hr⟩

/-! ## One mutation -/

/-- A sequence whose first part writes nothing fails there, having written nothing, or
goes on with everything held as before. -/
theorem quiet_bind {α β : Type} {x : ClientM α} {f : α → ClientM β} {r : Except UnifiError β}
    (hx : x.Asks ClientOp.Quiet) (h : (x >>= f).Gives t r) (hpath : Path NetworkStep s t s') :
    (Idle s t s' ∧ ∃ e, r = .error e) ∨
      ∃ t₁ t₂ a s₁, t = t₁ ++ t₂ ∧ x.Gives t₁ (.ok a) ∧ Path NetworkStep s t₁ s₁ ∧
        Idle s t₁ s₁ ∧ (f a).Gives t₂ r ∧ Path NetworkStep s₁ t₂ s' := by
  rcases Fallible.gives_bind.1 h with ⟨e, rfl, hfail⟩ | ⟨t₁, t₂, a, rfl, h₁, h₂⟩
  · exact .inl ⟨idle_of_asks hx hfail hpath, e, rfl⟩
  · obtain ⟨s₁, hpath₁, hpath₂⟩ := path_append.1 hpath
    exact .inr ⟨t₁, t₂, a, s₁, rfl, h₁, hpath₁, idle_of_asks hx h₁ hpath₁, h₂, hpath₂⟩

theorem Idle.trans {s₁ : Network} {t₁ t₂ : List (Event ClientSig)} (h₁ : Idle s t₁ s₁)
    (h₂ : Idle s₁ t₂ s') : Idle s (t₁ ++ t₂) s' :=
  ⟨by rw [landed_append, h₁.1, h₂.1]; rfl, h₂.2.trans h₁.2⟩

/-- Sites that are settled stay settled. -/
def Settled (c : UnifiClient) (s s' : Network) : Prop :=
  ∀ surface site, c.siteAt s surface = some site → c.siteAt s' surface = some site

theorem Settled.refl (s : Network) : Settled c s s := fun _ _ h => h

theorem Settled.trans {s₁ : Network} (h₁ : Settled c s s₁) (h₂ : Settled c s₁ s') :
    Settled c s s' :=
  fun surface site h => h₂ surface site (h₁ surface site h)

theorem KeepsUuid.settled {α : Type} {x : ClientM α} (hx : KeepsUuid x)
    {r : Except UnifiError α} (h : x.Gives t r) (hpath : Path NetworkStep s t s') :
    Settled c s s' :=
  fun _ _ hsite => hx.siteAt h hpath hsite

variable (c) in
/-- The key of a resource given by kind and id, once its site is settled. -/
def keyAt (s : Network) (kind id : String) : Option Key :=
  (ResourceKind.ofName? kind).bind fun k =>
    (siteAt c s k.surface).map fun site => (k, site, id)

theorem keyAt_name {k : ResourceKind} {site : String} (h : siteAt c s k.surface = some site)
    (id : String) : keyAt c s k.name id = some (k, site, id) := by
  rw [keyAt, ResourceKind.ofName?_eq_some.2 rfl, Option.bind_some, h, Option.map_some]

theorem Settled.keyAt (h : Settled c s s') {kind id : String} {key : Key}
    (hkey : c.keyAt s kind id = some key) : c.keyAt s' kind id = some key := by
  obtain ⟨k, hk, hmap⟩ := Option.bind_eq_some_iff.1 hkey
  obtain ⟨site, hsite, rfl⟩ := Option.map_eq_some_iff.1 hmap
  obtain rfl := ResourceKind.ofName?_eq_some.1 hk
  exact keyAt_name (h _ _ hsite) id

variable (c) in
/-- The key a mutation that was carried out wrote to. -/
def targetKey (s : Network) : StagedMutation → Option String → Option Key
  | .create kind _, createdId => createdId.bind fun id => keyAt c s kind id
  | .update kind id _, _ | .delete kind id, _ => keyAt c s kind id
  | .restore _, _ => none

theorem Settled.targetKey (h : Settled c s s') {m : StagedMutation} {createdId : Option String}
    {key : Key} (hkey : c.targetKey s m createdId = some key) :
    c.targetKey s' m createdId = some key := by
  cases m with
  | create kind body =>
      obtain ⟨id, rfl, hkey⟩ := Option.bind_eq_some_iff.1 hkey
      exact h.keyAt hkey
  | update kind id body | delete kind id => exact h.keyAt hkey
  | restore backupId => cases hkey

end UnifiClient

/-- A plan entry of the two sorts considered here. -/
def StagedMutation.IsCreateOrUpdate : StagedMutation → Prop
  | .create _ _ | .update _ _ _ => True
  | .delete _ _ | .restore _ => False

namespace UnifiClient

variable {c : UnifiClient} {s s' : Network} {t : List (Event ClientSig)}

/-- How the write of a create or of an update shows. -/
def WrittenFor (c : UnifiClient) (s s' : Network) (key : Key) (v : Json)
    (w : Request × Response) : StagedMutation → Prop
  | .create _ _ => w.1.method = .post ∧ s.held key = none
  | .update kind id _ => w.1.method = .put ∧ w.1.At key ∧ w.1.body = some v ∧
      c.keyAt s' kind id = some key
  | .delete _ _ | .restore _ => False

/-- The write of one mutation, performed. -/
structure Wrote (c : UnifiClient) (m : StagedMutation) (s : Network)
    (t : List (Event ClientSig)) (s' : Network) (key : Key) (v : Json)
    (w : Request × Response) : Prop where
  trace : landed t = [w]
  held : s'.held = Function.update s.held key (some v)
  shown : WrittenFor c s s' key v w m

/-- What one `apply_mutation` can do: write nothing and fail, or have its one write
performed.  It then succeeds exactly when the answer could be read. -/
def MutationEffect (c : UnifiClient) (m : StagedMutation) (s : Network)
    (t : List (Event ClientSig)) (s' : Network) (r : Except UnifiError (Option String)) : Prop :=
  (Idle s t s' ∧ ∃ e, r = .error e) ∨
    ∃ key v w, Wrote c m s t s' key v w ∧
      ((∃ e, r = .error e) ∧ Unread w ∨
        ∃ createdId, r = .ok createdId ∧ ¬ Unread w ∧ c.targetKey s' m createdId = some key)

/-- A first part that writes nothing does not change what is left to be shown. -/
theorem Wrote.of_idle {m : StagedMutation} {s₁ : Network} {t₁ t₂ : List (Event ClientSig)}
    {key : Key} {v : Json} {w : Request × Response} (hidle : Idle s t₁ s₁)
    (h : Wrote c m s₁ t₂ s' key v w) : Wrote c m s (t₁ ++ t₂) s' key v w := by
  refine ⟨by rw [landed_append, hidle.1, h.trace]; rfl, by rw [h.held, hidle.2], ?_⟩
  have hshown := h.shown
  cases m with
  | create kind body => exact ⟨hshown.1, by rw [← hidle.2]; exact hshown.2⟩
  | update kind id body => exact hshown
  | delete kind id | restore backupId => exact hshown

theorem MutationEffect.of_idle {m : StagedMutation} {s₁ : Network}
    {t₁ t₂ : List (Event ClientSig)} {r : Except UnifiError (Option String)}
    (hidle : Idle s t₁ s₁) (h : MutationEffect c m s₁ t₂ s' r) :
    MutationEffect c m s (t₁ ++ t₂) s' r := by
  rcases h with ⟨hidle₂, herror⟩ | ⟨key, v, w, hwrote, hend⟩
  · exact .inl ⟨hidle.trans hidle₂, herror⟩
  · exact .inr ⟨key, v, w, hwrote.of_idle hidle, hend⟩

/-- The effect of a sequence whose first part writes nothing. -/
theorem mutationEffect_quiet_bind {m : StagedMutation} {α : Type} {x : ClientM α}
    {f : α → ClientM (Option String)} {r : Except UnifiError (Option String)}
    (hx : x.Asks ClientOp.Quiet) (h : (x >>= f).Gives t r) (hpath : Path NetworkStep s t s')
    (hrest : ∀ t₁ t₂ a s₁, x.Gives t₁ (.ok a) → Path NetworkStep s t₁ s₁ → (f a).Gives t₂ r →
      Path NetworkStep s₁ t₂ s' → MutationEffect c m s₁ t₂ s' r) :
    MutationEffect c m s t s' r := by
  rcases quiet_bind hx h hpath with hfail | ⟨t₁, t₂, a, s₁, rfl, h₁, hpath₁, hidle, h₂, hpath₂⟩
  · exact .inl hfail
  · exact (hrest t₁ t₂ a s₁ h₁ hpath₁ h₂ hpath₂).of_idle hidle

theorem parseKind_ok {kind : String} {k : ResourceKind}
    (h : (parseKind kind).Gives t (.ok k)) : k.name = kind :=
  name_of_parse (gives_parseKind.1 h).2

/-- What a create does. -/
theorem create_effect {kind : String} {body : Json} {r : Except UnifiError (Option String)}
    (h : (c.applyMutation (.create kind body)).Gives t r) (hpath : Path NetworkStep s t s') :
    MutationEffect c (.create kind body) s t s' r := by
  refine mutationEffect_quiet_bind (asks_parseKind kind) h hpath
    fun t₁ t₂ k s₁ hk _ h₂ hpath₂ => ?_
  obtain rfl := parseKind_ok hk
  refine mutationEffect_quiet_bind (asks_defaultSiteFor _) h₂ hpath₂
    fun t₃ t₄ site s₂ hsite hpath₃ h₄ hpath₄ => ?_
  have hsettled := siteAt_of_gives hsite hpath₃
  have hsite' : c.siteAt s' k.surface = some site := by
    refine KeepsUuid.siteAt ?_ h₄ hpath₄ hsettled
    refine keepsUuid_request.bind fun response => keepsUuid_of_asks ?_
    exact (Fallible.asks_ofExcept _).bind fun _ => Fallible.asks_pure _
  rcases Fallible.gives_bind.1 h₄ with ⟨e, rfl, hpost⟩ | ⟨t₅, t₆, response, rfl, hpost, hread⟩
  · rcases post_effect hpost hpath₄ with hidle | ⟨id, v, w, hdone, hr⟩
    · exact .inl ⟨hidle.1, e, rfl⟩
    · refine .inr ⟨_, v, w, ⟨hdone.trace, hdone.held, hdone.method, hdone.fresh⟩,
        .inl ⟨⟨e, rfl⟩, ?_⟩⟩
      -- The answer was not JSON.
      unfold Unread
      rw [hdone.method]
      intro k' _ raw id' hraw
      rw [hraw] at hr
      cases hr
  · obtain ⟨s₃, hpath₅, hpath₆⟩ := path_append.1 hpath₄
    have hquiet : t₆ = [] ∧ r = (createdIdOf k.surface k.name response).map some := by
      rcases Fallible.gives_bind.1 hread with ⟨e, rfl, hid⟩ | ⟨t₇, t₈, id, rfl, hid, hpure⟩
      · obtain ⟨rfl, hfail⟩ := Fallible.gives_ofExcept.1 hid
        rw [hfail]
        exact ⟨rfl, rfl⟩
      · obtain ⟨rfl, hok⟩ := Fallible.gives_ofExcept.1 hid
        obtain ⟨rfl, rfl⟩ := Fallible.gives_pure.1 hpure
        rw [hok]
        exact ⟨rfl, rfl⟩
    obtain ⟨rfl, rfl⟩ := hquiet
    obtain rfl := path_nil.1 hpath₆
    rw [List.append_nil]
    rcases post_effect hpost hpath₅ with ⟨-, e, he⟩ | ⟨id, v, w, hdone, hr⟩
    · cases he
    · have hjson : w.2.json = .ok response := by
        cases hj : w.2.json with
        | error message =>
            rw [hj] at hr
            cases hr
        | ok raw =>
            rw [hj] at hr
            rw [Except.ok.inj hr]
      refine .inr ⟨_, v, w, ⟨hdone.trace, hdone.held, hdone.method, hdone.fresh⟩, ?_⟩
      cases hid : createdIdOf k.surface k.name response with
      | error e =>
          refine .inl ⟨⟨e, rfl⟩, ?_⟩
          unfold Unread
          rw [hdone.method]
          intro k' hk' raw id' hraw hok
          obtain rfl := ResourceKind.pathTemplate_injective (hdone.template.symm.trans hk')
          obtain rfl := Except.ok.inj (hjson.symm.trans hraw)
          cases hid.symm.trans hok
      | ok id' =>
          obtain rfl : id' = id := hdone.named response id' hjson hid
          refine .inr ⟨some id', rfl, ?_, keyAt_name hsite' id'⟩
          unfold Unread
          rw [hdone.method]
          intro hunread
          exact hunread k hdone.template response id' hjson hid

/-- What an update does. -/
theorem update_effect {kind id : String} {body : Json} {r : Except UnifiError (Option String)}
    (h : (c.applyMutation (.update kind id body)).Gives t r) (hpath : Path NetworkStep s t s') :
    MutationEffect c (.update kind id body) s t s' r := by
  refine mutationEffect_quiet_bind (asks_parseKind kind) h hpath
    fun t₁ t₂ k s₁ hk _ h₂ hpath₂ => ?_
  obtain rfl := parseKind_ok hk
  split_ifs at h₂ with hdevice
  · obtain ⟨rfl, rfl⟩ := h₂
    exact .inl ⟨⟨rfl, by rw [path_nil.1 hpath₂]⟩, _, rfl⟩
  · refine mutationEffect_quiet_bind (asks_defaultSiteFor _) h₂ hpath₂
      fun t₃ t₄ site s₂ hsite hpath₃ h₄ hpath₄ => ?_
    have hsettled := siteAt_of_gives hsite hpath₃
    have hsite' : c.siteAt s' k.surface = some site := by
      refine KeepsUuid.siteAt ?_ h₄ hpath₄ hsettled
      refine (keepsUuid_mergedBody _ _ _ _).bind fun merged => ?_
      exact keepsUuid_request.bind fun _ => keepsUuid_of_asks (Fallible.asks_pure _)
    refine mutationEffect_quiet_bind (asks_mergedBody _ _ _ _) h₄ hpath₄
      fun t₅ t₆ merged s₃ _ _ h₆ hpath₆ => ?_
    have hkey := keyAt_name hsite' id
    rcases Fallible.gives_bind.1 h₆ with ⟨e, rfl, hput⟩ | ⟨t₇, t₈, response, rfl, hput, hpure⟩
    · rcases put_effect hput hpath₆ with hidle | ⟨w, hdone, hr⟩
      · exact .inl ⟨hidle.1, e, rfl⟩
      · refine .inr ⟨_, merged, w, ⟨hdone.trace, hdone.held, hdone.method, hdone.address,
          hdone.sent, hkey⟩, .inl ⟨⟨e, rfl⟩, ?_⟩⟩
        unfold Unread
        rw [hdone.method]
        cases hj : w.2.json with
        | error message => exact ⟨message, rfl⟩
        | ok raw =>
            rw [hj] at hr
            cases hr
    · obtain ⟨rfl, rfl⟩ := Fallible.gives_pure.1 hpure
      obtain ⟨s₄, hpath₇, hpath₈⟩ := path_append.1 hpath₆
      obtain rfl := path_nil.1 hpath₈
      rw [List.append_nil]
      rcases put_effect hput hpath₇ with ⟨-, e, he⟩ | ⟨w, hdone, hr⟩
      · cases he
      · refine .inr ⟨_, merged, w, ⟨hdone.trace, hdone.held, hdone.method, hdone.address,
          hdone.sent, hkey⟩, .inr ⟨none, rfl, ?_, hkey⟩⟩
        unfold Unread
        rw [hdone.method]
        rintro ⟨message, hmessage⟩
        rw [hmessage] at hr
        cases hr

/-- **What one `apply_mutation` can do.** -/
theorem mutation_effect {m : StagedMutation} (hm : m.IsCreateOrUpdate)
    {r : Except UnifiError (Option String)} (h : (c.applyMutation m).Gives t r)
    (hpath : Path NetworkStep s t s') : MutationEffect c m s t s' r := by
  cases m with
  | create kind body => exact create_effect h hpath
  | update kind id body => exact update_effect h hpath
  | delete kind id | restore backupId => exact hm.elim

/-! ## Rolling one mutation back -/

theorem keepsUuid_writeBody (kind : String) (k : ResourceKind) (body : WriteBody) :
    KeepsUuid (c.writeBody kind k body) := by
  cases body with
  | empty | whole value => exact keepsUuid_of_asks (Fallible.asks_pure _)
  | merged id staged =>
      exact (keepsUuid_mergedBody _ _ _ _).bind fun _ => keepsUuid_of_asks (Fallible.asks_pure _)

theorem keepsUuid_write {α : Type} (w : KindWrite α) : KeepsUuid (c.write w) := by
  refine (keepsUuid_of_asks (asks_parseKind w.kind)).bind fun k => ?_
  refine (keepsUuid_of_asks (Fallible.asks_ofExcept _)).bind fun _ => ?_
  refine (keepsUuid_defaultSiteFor _).bind fun site => ?_
  refine (keepsUuid_writeBody _ _ _).bind fun body => ?_
  exact keepsUuid_request.bind fun _ => keepsUuid_of_asks (Fallible.asks_ofExcept _)

theorem keepsUuid_applyMutation (m : StagedMutation) : KeepsUuid (c.applyMutation m) :=
  applyMutation_of KeepsUuid (fun _ => keepsUuid_of_asks (Fallible.asks_throw _)) fun w _ =>
    keepsUuid_write w

/-- A write to one resource comes after the site was found, which writes nothing and is settled
from then on. -/
theorem writeOne_effect {kind id : String} {method : Method} {body : Option Json}
    (h : (parseKind kind >>= fun k => c.defaultSiteFor k.surface >>= fun site =>
      c.request method k.surface k.singleResourceTemplate [("site", site), ("id", id)] [] body >>=
        fun _ => pure ()).Gives t (.ok ()))
    (hpath : Path NetworkStep s t s') :
    ∃ (k : ResourceKind) (site : String) (t₁ t₂ : List (Event ClientSig)) (response : Json)
      (s₁ : Network), k.name = kind ∧ t = t₁ ++ t₂ ∧ Idle s t₁ s₁ ∧
      (c.request method k.surface k.singleResourceTemplate [("site", site), ("id", id)] []
        body).Gives t₂ (.ok response) ∧
      Path NetworkStep s₁ t₂ s' ∧ c.siteAt s' k.surface = some site ∧ Settled c s s' := by
  obtain ⟨k, hk, h₁⟩ := gives_parseKind_bind_ok h
  obtain ⟨t₁, t₂, site, rfl, hsite, h₂⟩ := Fallible.gives_bind_ok.1 h₁
  obtain ⟨t₃, t₄, response, rfl, hwrite, hpure⟩ := Fallible.gives_bind_ok.1 h₂
  obtain ⟨rfl, -⟩ := Fallible.gives_pure.1 hpure
  rw [List.append_nil] at hpath ⊢
  obtain ⟨s₁, hpath₁, hpath₂⟩ := path_append.1 hpath
  have hsettled := siteAt_of_gives hsite hpath₁
  exact ⟨k, site, t₁, t₃, response, s₁, hk, rfl, idle_of_asks (asks_defaultSiteFor _) hsite hpath₁,
    hwrite, hpath₂, keepsUuid_request.siteAt hwrite hpath₂ hsettled,
    ((keepsUuid_defaultSiteFor _).settled hsite hpath₁).trans
      (keepsUuid_request.settled hwrite hpath₂)⟩

/-- A rollback that succeeded put the prior value back where the mutation had written: the
value of an update, and nothing in place of what was created. -/
theorem rollback_effect {preimage : Preimage} {m : StagedMutation} (hm : m.IsCreateOrUpdate)
    {createdId : Option String}
    (h : (c.rollbackMutation (priorValueOf preimage m) createdId m).Gives t (.ok ()))
    (hpath : Path NetworkStep s t s') :
    Settled c s s' ∧ ∃ key, c.targetKey s' m createdId = some key ∧
      s'.held = Function.update s.held key (priorValueOf preimage m) ∧
      ∀ w ∈ landed t, ¬ Unread w ∧ (w.1.method = .put → w.1.At key) := by
  cases m with
  | delete kind id | restore backupId => exact hm.elim
  | create kind body =>
      cases createdId with
      | none => cases h.2
      | some id =>
          obtain ⟨k, site, t₁, t₂, response, s₁, rfl, rfl, hidle, hdelete, hpath₂, hsite,
            hsettled⟩ := writeOne_effect h hpath
          rcases delete_effect hdelete hpath₂ with ⟨-, e, he⟩ | ⟨w, htrace, hmethod, hheld, -⟩
          · cases he
          · refine ⟨hsettled, _, keyAt_name hsite id, ?_, ?_⟩
            · rw [hheld, hidle.2]
              rfl
            · intro w' hw'
              rw [landed_append, hidle.1, htrace] at hw'
              obtain rfl := List.mem_singleton.1 hw'
              refine ⟨?_, fun hput => ?_⟩
              · rw [Unread, hmethod]
                exact not_false
              · rw [hmethod] at hput
                cases hput
  | update kind id body =>
      cases hvalue : priorValueOf preimage (.update kind id body) with
      | none =>
          rw [hvalue] at h
          cases h.2
      | some prior =>
          rw [hvalue] at h
          obtain ⟨k, site, t₁, t₂, response, s₁, rfl, rfl, hidle, hput, hpath₂, hsite,
            hsettled⟩ := writeOne_effect h hpath
          rcases put_effect hput hpath₂ with ⟨-, e, he⟩ | ⟨w, hdone, hr⟩
          · cases he
          · refine ⟨hsettled, _, keyAt_name hsite id, ?_, ?_⟩
            · rw [hdone.held, hidle.2]
            · intro w' hw'
              rw [landed_append, hidle.1, hdone.trace] at hw'
              obtain rfl := List.mem_singleton.1 hw'
              refine ⟨?_, fun _ => hdone.address⟩
              rw [Unread, hdone.method]
              rintro ⟨message, hmessage⟩
              rw [hmessage] at hr
              cases hr

end UnifiClient

end UnifiMcp

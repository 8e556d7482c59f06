import UnifiMcp.Client.WriteSites
import UnifiMcp.Interaction.Pool

/-!
# What a write request may carry

`checkWritableFields` looks at a plan and `applyMutation` sends it.  `AllowedWrite` says what
the requests of an accepted mutation look like: a create, and an update outside the Private v2
surface, carries writable fields only; a Private v2 update carries the resource that was read
right before it with the staged fields put over it.  `accepted_writes_carried_iff` is the
statement over every beginning of every run, with the condition under which the staged fields
arrive: the resource that was read is an object.
-/

namespace UnifiMcp

open Interaction Collections

/-! ## Merging -/

/-- A field that is not staged keeps its current value. -/
theorem findEntry_mergeFields_of_not_mem {current staged : List (String × Json)} {key : String}
    (h : key ∉ staged.map Prod.fst) :
    findEntry key (mergeFields current staged) = findEntry key current := by
  induction staged generalizing current with
  | nil => rfl
  | cons e rest ih =>
      obtain ⟨k, v⟩ := e
      rw [List.map_cons, List.mem_cons, not_or] at h
      have hrest : findEntry key (mergeFields current ((k, v) :: rest)) =
          findEntry key (if k ≠ "_id" ∧ k ≠ "site_id" then insertEntry k v current
            else current) := ih h.2
      rw [hrest]
      split_ifs
      · exact findEntry_insertEntry_of_ne h.1 v current
      · rfl

/-- A staged field takes its staged value, unless the controller manages it. -/
theorem findEntry_mergeFields_of_mem {current staged : List (String × Json)} {key : String}
    {v : Json} (hstaged : Ascending staged) (h : (key, v) ∈ staged)
    (hid : key ≠ "_id") (hsite : key ≠ "site_id") :
    findEntry key (mergeFields current staged) = some v := by
  induction staged generalizing current with
  | nil => cases h
  | cons e rest ih =>
      obtain ⟨hhead, hrest⟩ := List.pairwise_cons.1 hstaged
      rcases List.mem_cons.1 h with rfl | h
      · -- The entries that follow have greater keys and leave this one alone.
        have hnot : key ∉ rest.map Prod.fst := by
          intro hmem
          obtain ⟨e, he, hkey⟩ := List.mem_map.1 hmem
          exact absurd (hhead e he) (by rw [hkey]; exact lt_irrefl key)
        have hmerge : mergeFields current ((key, v) :: rest) =
            mergeFields (insertEntry key v current) rest := by
          show mergeFields (if key ≠ "_id" ∧ key ≠ "site_id" then insertEntry key v current
            else current) rest = _
          rw [if_pos ⟨hid, hsite⟩]
        rw [hmerge, findEntry_mergeFields_of_not_mem hnot, findEntry_insertEntry_self]
      · exact ih hrest h

/-- `sent` is the current resource with the staged fields over it; what is not an object is
sent back as it was. -/
structure MergedOver (allowed : List String) (current staged sent : Json) : Prop where
  kept : ∀ key, key ∉ allowed → sent.get? key = current.get? key
  managed : sent.get? "_id" = current.get? "_id" ∧ sent.get? "site_id" = current.get? "site_id"
  overlaid : current.isObject = true → ∀ fields, staged = .obj fields → Ascending fields →
    ∀ key v, staged.get? key = some v → sent.get? key = some v
  unmerged : current.isObject = false → sent = current

/-- No kind lets the two fields the controller manages be staged. -/
theorem managed_not_writable {k : ResourceKind} {allowed : List String}
    (h : writableFields k = some allowed) : "_id" ∉ allowed ∧ "site_id" ∉ allowed := by
  cases k <;> cases h <;> decide

theorem mergedOver_mergeStaged {k : ResourceKind} {allowed : List String}
    (hallowed : writableFields k = some allowed) {fields : List (String × Json)}
    (hfields : ∀ e ∈ fields, e.1 ∈ allowed) (current : Json) :
    MergedOver allowed current (.obj fields) (mergeStaged current (.obj fields)) := by
  obtain ⟨hid, hsite⟩ := managed_not_writable hallowed
  have hkept : ∀ key, key ∉ allowed →
      (mergeStaged current (.obj fields)).get? key = current.get? key := by
    intro key hkey
    cases current with
    | null | bool _ | num _ | str _ | arr _ => rfl
    | obj currentFields =>
        refine findEntry_mergeFields_of_not_mem fun hmem => hkey ?_
        obtain ⟨e, he, rfl⟩ := List.mem_map.1 hmem
        exact hfields e he
  refine ⟨hkept, ⟨hkept _ hid, hkept _ hsite⟩, ?_, ?_⟩
  · intro hobject staged hstaged hascending key v hfound
    cases hstaged
    obtain ⟨currentFields, rfl⟩ := Json.isObject_iff.1 hobject
    have hmem := hascending.mem_iff.2 hfound
    have hkey := hfields _ hmem
    exact findEntry_mergeFields_of_mem hascending hmem (fun heq => hid (heq ▸ hkey))
      fun heq => hsite (heq ▸ hkey)
  · intro hobject
    cases current with
    | null | bool _ | num _ | str _ | arr _ => rfl
    | obj currentFields => cases hobject

/-! ## Requests -/

/-- A read of one resource that was answered with it. -/
def FoundBy (k : ResourceKind) (id : String) (current : Json) (e : Event ClientSig) : Prop :=
  ∃ site response raw items, IsRead k site id (.ok response) e ∧ response.json = .ok raw ∧
    fetchedItems k.surface raw = .ok items ∧ items.head? = some current

/-- A body that sets writable fields only. -/
def OnlyFields (allowed : List String) (body : Json) : Prop :=
  ∃ fields, body = .obj fields ∧ ∀ e ∈ fields, e.1 ∈ allowed

/-- The write request of a mutation, sent after the events `before`. -/
def AllowedWrite (m : StagedMutation) (before : List (Event ClientSig)) (request : Request) :
    Prop :=
  ∃ k allowed, m.kind? = some k.name ∧ writableFields k = some allowed ∧
    match m with
    | .create _ body => request.method = .post ∧ request.template = k.pathTemplate ∧
        request.body = some body ∧ OnlyFields allowed body
    | .update _ id body => request.method = .put ∧ request.template = k.singleResourceTemplate ∧
        if k.surface = .privateV2 then
          ∃ e current sent, before.getLast? = some e ∧ FoundBy k id current e ∧
            request.body = some sent ∧ MergedOver allowed current body sent
        else request.body = some body ∧ OnlyFields allowed body
    | .delete _ _ => request.method = .delete ∧ request.template = k.singleResourceTemplate ∧
        request.body = none
    | .restore _ => False

namespace UnifiClient

variable {c : UnifiClient} {method : Method} {surface : ApiSurface} {template : String}
  {params query : List (String × String)} {body : Option Json} {t : List (Event ClientSig)}

theorem begins_send_bind {α : Type} {request : Request} {f : Response → ClientM α}
    (h : (send request >>= f).Begins t) :
    t = [] ∨ ∃ answer rest, t = sendEvent request answer :: rest ∧
      (rest = [] ∨ ∃ response, (f response).Begins rest) := by
  rcases Fallible.begins_bind.1 h with hsend | ⟨t₁, t₂, response, rfl, h₁, h₂⟩
  · cases t with
    | nil => exact .inl rfl
    | cons e rest =>
        obtain ⟨answer, rfl, hrest⟩ := hsend
        refine .inr ⟨answer, rest, rfl, .inl ?_⟩
        cases answer with
        | ok response => exact Fallible.begins_pure hrest
        | error e => exact Fallible.begins_throw hrest
  · obtain ⟨answer, rfl, -⟩ := gives_send.1 h₁
    exact .inr ⟨answer, t₂, rfl, .inr ⟨response, h₂⟩⟩

/-- A request starts with its own question; only the version is asked for after it. -/
theorem begins_request (h : (c.request method surface template params query body).Begins t) :
    t = [] ∨ ∃ path answer rest,
      t = sendEvent (requestOf c method template params query body path) answer :: rest ∧
        ∀ e ∈ rest, ClientOp.IsVersion e.op := by
  unfold request at h
  cases hp : ensureSurfacePermitted c.controller surface with
  | error e =>
      rw [hp, Fallible.ofExcept_error_bind] at h
      exact .inl (Fallible.begins_throw h)
  | ok u =>
      rw [hp, Fallible.ofExcept_ok_bind] at h
      cases hx : c.expandPath template params with
      | error message =>
          rw [hx] at h
          exact .inl (Fallible.begins_throw h)
      | ok path =>
          rw [hx, Except.mapError, Fallible.ofExcept_ok_bind] at h
          rcases begins_send_bind h with rfl | ⟨answer, rest, rfl, hrest⟩
          · exact .inl rfl
          · refine .inr ⟨path, answer, rest, rfl, ?_⟩
            rcases hrest with rfl | ⟨response, hrest⟩
            · exact fun e he => absurd he List.not_mem_nil
            · split_ifs at hrest
              · exact (asks_handleErrorResponse c surface path _ _).of_begins hrest
              · rw [Fallible.begins_ofExcept hrest]
                exact fun e he => absurd he List.not_mem_nil

/-- The only write a request can send is itself, first of all. -/
theorem write_of_begins_request
    (h : (c.request method surface template params query body).Begins t)
    {before after : List (Event ClientSig)} {sent : Request} {answer : Except HttpError Response}
    (ht : t = before ++ sendEvent sent answer :: after) (hwrite : sent.method.isWrite = true) :
    before = [] ∧ ∃ path, sent = requestOf c method template params query body path := by
  rcases begins_request h with rfl | ⟨path, answer', rest, rfl, hrest⟩
  · cases before <;> cases ht
  · cases before with
    | nil =>
        cases ht
        exact ⟨rfl, path, rfl⟩
    | cons e before =>
        cases ht
        have hversion : sent.method = .get :=
          (hrest (sendEvent sent answer) (List.mem_append_right _ List.mem_cons_self)).1
        rw [hversion] at hwrite
        cases hwrite

/-- Reading the kind of a mutation asks nothing. -/
theorem begins_parseKind_bind {α : Type} {kind : String} {f : ResourceKind → ClientM α}
    (h : (parseKind kind >>= f).Begins t) (ht : t ≠ []) :
    ∃ k, ResourceKind.parse kind = .ok k ∧ (f k).Begins t := by
  unfold parseKind at h
  cases hparse : ResourceKind.parse kind with
  | error e =>
      rw [hparse] at h
      exact absurd (Fallible.begins_throw h) ht
  | ok k =>
      rw [hparse] at h
      exact ⟨k, rfl, h⟩

/-- On the private surfaces the site a caller omits is known. -/
theorem begins_defaultSiteFor_bind {α : Type} {f : String → ClientM α} (hs : surface ≠ .supported)
    (h : (c.defaultSiteFor surface >>= f).Begins t) : (f c.controller.site).Begins t := by
  rw [defaultSiteFor_of_ne hs] at h
  exact h

/-- The body of a Private v2 update is merged over what was just read. -/
theorem gives_mergedBody_privateV2 {kind id : String} {staged merged : Json} {k : ResourceKind}
    (hkind : k.name = kind) (hs : k.surface = .privateV2)
    (h : (c.mergedBody k.surface kind id staged).Gives t (.ok merged)) :
    ∃ e current, t = [e] ∧ FoundBy k id current e ∧ merged = mergeStaged current staged := by
  unfold mergedBody at h
  rw [if_pos hs] at h
  obtain ⟨t₁, t₂, found, rfl, hfound, hrest⟩ := Fallible.gives_bind_ok.1 h
  cases found with
  | none => cases (Fallible.gives_throw.1 hrest).2
  | some current =>
      obtain ⟨rfl, hmerged⟩ := Fallible.gives_pure.1 hrest
      cases hmerged
      obtain ⟨k', t₃, t₄, site, hk', rfl, hsite, ⟨raw, items, hget, hitems, hhead⟩ |
        ⟨e, -, -, hnone⟩⟩ := gives_fetchResource_ok hfound
      · obtain rfl : k' = k := ResourceKind.name_injective (hk'.trans hkind.symm)
        rw [defaultSiteFor_of_ne (by rw [hs]; decide)] at hsite
        obtain ⟨rfl, -⟩ := Fallible.gives_pure.1 hsite
        obtain ⟨path, response, -, -, -, hjson, rfl⟩ := gives_request_ok hget
        exact ⟨_, current, rfl, ⟨site, response, raw, items, ⟨_, rfl, rfl, rfl, rfl⟩, hjson, hitems,
          hhead.symm⟩, rfl⟩
      · cases hnone

end UnifiClient

/-! ## The writes of a mutation -/

section Allowed

variable {c : UnifiClient} {number : Number → String} {t before after : List (Event ClientSig)}
  {sent : Request} {answer : Except HttpError Response}

/-- **What one accepted mutation writes.** -/
theorem allowedWrite_of_begins {m : StagedMutation} (h : checkWritable number m = .ok ())
    (hbegins : (c.applyMutation m).Begins t)
    (ht : t = before ++ sendEvent sent answer :: after) (hwrite : sent.method.isWrite = true) :
    AllowedWrite m before sent := by
  have hne : t ≠ [] := by
    rw [ht]
    simp
  have hkind : ∀ {kind : String} {body : Option Json}, m.checked = some (kind, body) →
      ∃ k allowed, ResourceKind.parse kind = .ok k ∧ k.name = kind ∧
        writableFields k = some allowed ∧ k.surface ≠ .supported ∧
        ∀ v, body = some v → OnlyFields allowed v := by
    intro kind body hchecked
    obtain ⟨k, allowed, hparse, hallowed, hbody⟩ := checkWritable_ok h hchecked
    exact ⟨k, allowed, hparse, ResourceKind.parse_eq_ok.1 hparse, hallowed,
      surface_of_writable (by rw [hallowed]; rfl), hbody⟩
  cases m with
  | restore backupId => exact absurd (Fallible.begins_throw hbegins) hne
  | create kind body =>
      obtain ⟨k, allowed, hparse, hname, hallowed, hsurface, hbody⟩ := hkind rfl
      obtain ⟨k', hparse', hbegins⟩ := UnifiClient.begins_parseKind_bind hbegins hne
      obtain rfl : k' = k := Except.ok.inj (hparse'.symm.trans hparse)
      have hpost := Fallible.begins_bind_silent
        (UnifiClient.begins_defaultSiteFor_bind hsurface hbegins) fun response =>
          (Fallible.asks_ofExcept _).bind fun _ => Fallible.asks_pure _
      obtain ⟨-, path, rfl⟩ := UnifiClient.write_of_begins_request hpost ht hwrite
      exact ⟨k', allowed, congrArg some hname.symm, hallowed, rfl, rfl, rfl, hbody body rfl⟩
  | update kind id body =>
      obtain ⟨k, allowed, hparse, hname, hallowed, hsurface, hbody⟩ := hkind rfl
      obtain ⟨k', hparse', hbegins⟩ := UnifiClient.begins_parseKind_bind hbegins hne
      obtain rfl : k' = k := Except.ok.inj (hparse'.symm.trans hparse)
      dsimp only at hbegins
      split_ifs at hbegins with hdevice
      · exact absurd (Fallible.begins_throw hbegins) hne
      · have hmerge := UnifiClient.begins_defaultSiteFor_bind hsurface hbegins
        have hquiet := UnifiClient.asks_mergedBody (c := c) k'.surface kind id body
        have hnot : ¬ ClientOp.Quiet (sendEvent sent answer).op := by
          intro hq
          have hread : sent.method.isWrite = false := hq
          rw [hread] at hwrite
          cases hwrite
        rw [ht] at hmerge
        obtain ⟨t₁, rest, merged, rfl, hgives, hput⟩ := Fallible.begins_bind_at hquiet hmerge hnot
        have hput := Fallible.begins_bind_silent hput fun _ => Fallible.asks_pure _
        obtain ⟨rfl, path, rfl⟩ := UnifiClient.write_of_begins_request hput rfl hwrite
        refine ⟨k', allowed, congrArg some hname.symm, hallowed, rfl, rfl, ?_⟩
        split_ifs with hs
        · obtain ⟨e, current, rfl, hfound, rfl⟩ :=
            UnifiClient.gives_mergedBody_privateV2 hname hs hgives
          obtain ⟨fields, rfl, hfields⟩ := hbody body rfl
          exact ⟨e, current, _, rfl, hfound, rfl,
            mergedOver_mergeStaged hallowed hfields current⟩
        · unfold UnifiClient.mergedBody at hgives
          rw [if_neg hs] at hgives
          obtain ⟨-, hmerged⟩ := Fallible.gives_pure.1 hgives
          cases hmerged
          exact ⟨rfl, hbody body rfl⟩
  | delete kind id =>
      obtain ⟨k, allowed, hparse, hname, hallowed, hsurface, -⟩ := hkind rfl
      obtain ⟨k', hparse', hbegins⟩ := UnifiClient.begins_parseKind_bind hbegins hne
      obtain rfl : k' = k := Except.ok.inj (hparse'.symm.trans hparse)
      have hdelete := Fallible.begins_bind_silent
        (UnifiClient.begins_defaultSiteFor_bind hsurface hbegins) fun _ => Fallible.asks_pure _
      obtain ⟨-, path, rfl⟩ := UnifiClient.write_of_begins_request hdelete ht hwrite
      exact ⟨k', allowed, congrArg some hname.symm, hallowed, rfl, rfl, rfl⟩

/-- What is sent for an update agrees with the staged body on every key that body has. -/
def CarriesStaged (m : StagedMutation) (request : Request) : Prop :=
  ∀ kind id body, m = .update kind id body →
    ∃ sent, request.body = some sent ∧ ∀ key v, body.get? key = some v → sent.get? key = some v

/-- Wherever the write of a Private v2 update follows the read of its resource, that resource is
an object, or nothing is staged. -/
def MergesOntoObject (m : StagedMutation) (t : List (Event ClientSig)) : Prop :=
  ∀ kind id body, m = .update kind id body →
    ∀ before e sent answer after, t = before ++ e :: sendEvent sent answer :: after →
      sent.method.isWrite = true → ∀ k current, k.name = kind → k.surface = .privateV2 →
        FoundBy k id current e → current.isObject = true ∨ body = .obj []

/-- A read shows one resource. -/
theorem FoundBy.unique {k k' : ResourceKind} {id id' : String} {current current' : Json}
    {e : Event ClientSig} (h : FoundBy k id current e) (h' : FoundBy k' id' current' e)
    (hk : k = k') : current = current' := by
  subst hk
  obtain ⟨site, response, raw, items, ⟨request, rfl, -, -, -⟩, hraw, hitems, hhead⟩ := h
  obtain ⟨site', response', raw', items', ⟨request', hevent, -, -, -⟩, hraw', hitems', hhead'⟩ := h'
  cases hevent
  obtain rfl : raw = raw' := Except.ok.inj (hraw.symm.trans hraw')
  obtain rfl : items = items' := Except.ok.inj (hitems.symm.trans hitems')
  exact Option.some.inj (hhead.symm.trans hhead')

/-- Only an object has keys. -/
theorem get?_of_not_isObject {v : Json} (h : v.isObject = false) (key : String) :
    v.get? key = none := by
  cases v with
  | obj fields => cases h
  | null | bool _ | num _ | str _ | arr _ => rfl

/-- An accepted update carries what is staged if and only if it merged onto an object. -/
theorem carriesStaged_iff {m : StagedMutation} (h : checkWritable number m = .ok ())
    (hascending : ∀ kind id fields, m = .update kind id (.obj fields) → Ascending fields)
    (hallowed : AllowedWrite m before sent) :
    CarriesStaged m sent ↔ ∀ kind id body, m = .update kind id body →
      ∀ e, before.getLast? = some e →
      ∀ k current, k.name = kind → k.surface = .privateV2 → FoundBy k id current e →
        current.isObject = true ∨ body = .obj [] := by
  cases m with
  | create kind body | delete kind id | restore backupId =>
      exact iff_of_true (fun _ _ _ hm => nomatch hm) fun _ _ _ hm => nomatch hm
  | update kind id body =>
      obtain ⟨k, allowed, hkind, hwritable, -, -, hbody⟩ := hallowed
      obtain rfl : kind = k.name := Option.some.inj hkind
      obtain ⟨_, _, -, -, hfields⟩ := checkWritable_ok h rfl
      obtain ⟨fields, rfl, -⟩ := hfields body rfl
      constructor
      · rintro hcarries kind' id' body' hm e hlast k' current hk' hs hfound
        cases hm
        obtain rfl := ResourceKind.name_injective hk'
        rw [if_pos hs] at hbody
        obtain ⟨e', current', sent', hlast', hfound', hsent, hmerged⟩ := hbody
        obtain rfl : e = e' := Option.some.inj (hlast.symm.trans hlast')
        obtain rfl := hfound.unique hfound' rfl
        by_contra hnot
        rw [not_or, Bool.not_eq_true] at hnot
        obtain ⟨hobject, hne⟩ := hnot
        -- The first staged field is nowhere in what was sent.
        obtain ⟨sent'', hsent'', hkeys⟩ := hcarries _ _ _ rfl
        obtain rfl : sent' = sent'' := Option.some.inj (hsent.symm.trans hsent'')
        cases fields with
        | nil => exact hne rfl
        | cons first rest =>
            have hfirst : (Json.obj (first :: rest)).get? first.1 = some first.2 := by
              simp [Json.get?, findEntry]
            have hmissing := hkeys _ _ hfirst
            rw [hmerged.unmerged hobject, get?_of_not_isObject hobject] at hmissing
            cases hmissing
      · rintro hobject kind' id' body' hm
        cases hm
        by_cases hs : k.surface = .privateV2
        · rw [if_pos hs] at hbody
          obtain ⟨e, current, merged, hlast, hfound, hsent, hmerged⟩ := hbody
          refine ⟨merged, hsent, fun key v hstaged => ?_⟩
          rcases hobject _ _ _ rfl e hlast k current rfl hs hfound with hobj | hempty
          · exact hmerged.overlaid hobj fields rfl (hascending _ _ _ rfl) key v hstaged
          · rw [hempty] at hstaged
            cases hstaged
        · rw [if_neg hs] at hbody
          exact ⟨_, hbody.1, fun _ _ hstaged => hstaged⟩

end Allowed

/-- What is asked of the writes of a mutation: each is an allowed one that carries what is
staged, and a restore sends nothing. -/
structure WritesAsStaged (m : StagedMutation) (t : List (Event ClientSig)) : Prop where
  writes : ∀ before sent answer after, t = before ++ sendEvent sent answer :: after →
    sent.method.isWrite = true → AllowedWrite m before sent ∧ CarriesStaged m sent
  restore : ∀ backupId, m = .restore backupId → t = []

/-- **What an accepted plan can write.**  For every mutation of the plan and every beginning of
every run of it, the writes are as staged if and only if no update was merged onto a live value
that is not an object. -/
theorem accepted_writes_carried_iff {c : UnifiClient} {number : Number → String}
    {mutations : List StagedMutation} {m : StagedMutation} {t : List (Event ClientSig)}
    (h : checkWritableFields number mutations = .ok ()) (hm : m ∈ mutations)
    (hascending : ∀ kind id fields, m = .update kind id (.obj fields) → Ascending fields)
    (hbegins : (c.applyMutation m).Begins t) :
    WritesAsStaged m t ↔ MergesOntoObject m t := by
  have hcheck := checkWritable_of_mem h hm
  constructor
  · rintro hwrites kind id body rfl before e sent answer after rfl hwrite k current hk hs hfound
    have hsplit : before ++ e :: sendEvent sent answer :: after =
        (before ++ [e]) ++ sendEvent sent answer :: after := by simp
    obtain ⟨hallowed, hcarries⟩ := hwrites.writes _ sent answer after hsplit hwrite
    exact (carriesStaged_iff hcheck hascending hallowed).1 hcarries _ _ _ rfl e
      List.getLast?_concat k current hk hs hfound
  · intro hobject
    refine ⟨fun before sent answer after ht hwrite => ?_, ?_⟩
    · have hallowed := allowedWrite_of_begins hcheck hbegins ht hwrite
      refine ⟨hallowed, (carriesStaged_iff hcheck hascending hallowed).2 ?_⟩
      intro kind id body hm' e hlast k current hk hs hfound
      obtain ⟨earlier, rfl⟩ := List.getLast?_eq_some_iff.1 hlast
      refine hobject _ _ _ hm' earlier e sent answer after ?_ hwrite k current hk hs hfound
      rw [ht, List.append_assoc]
      rfl
    · rintro backupId rfl
      exact Fallible.begins_throw hbegins

/-! ## A live value that is not an object -/

/-- A client of one site that may use the private surfaces. -/
def siteClient : UnifiClient where
  controller :=
    ⟨"https://unifi.example.org", "default", some "UNIFI_API_KEY", none, none, true, false⟩
  expandPath _ _ := .ok "/proxy/network/v2/api/site/default/firewall-policies/p1"

/-- A policy is given a new name. -/
def renamePolicy : StagedMutation := .update "firewall_policy" "p1" (.obj [("name", .str "block")])

/-- The controller that answers every request with a list of this one value. -/
def answeringWith (v : Json) : (op : ClientOp) → Unit → op.Answer × Unit
  | .send _, s => (.ok ⟨200, "", .ok (.arr [v])⟩, s)
  | .cachedSiteUuid, s | .cachedVersion, s => (.ok none, s)
  | .cacheSiteUuid _, s | .cacheVersion _, s => (.ok (), s)

/-- The read and the write of that update, over a controller that answers with `v`. -/
def renameTrace (v : Json) : List (Event ClientSig) :=
  let address := [("site", "default"), ("id", "p1")]
  let template := ResourceKind.firewallPolicy.singleResourceTemplate
  let path := "/proxy/network/v2/api/site/default/firewall-policies/p1"
  let answer := .ok ⟨200, "", .ok (.arr [v])⟩
  [sendEvent (UnifiClient.requestOf siteClient .get template address [] none path) answer,
    sendEvent (UnifiClient.requestOf siteClient .put template address []
      (some (mergeStaged v (.obj [("name", .str "block")]))) path) answer]

theorem begins_renameTrace (v : Json) :
    (siteClient.applyMutation renamePolicy).Begins (renameTrace v) :=
  (Program.eval_runs (siteClient.applyMutation renamePolicy).run (answeringWith v) ()).begins

theorem checkWritable_renamePolicy (number : Number → String) :
    checkWritableFields number [renamePolicy] = .ok () := rfl

theorem ascending_renamePolicy (kind id : String) (fields : List (String × Json))
    (h : renamePolicy = .update kind id (.obj fields)) : Ascending fields := by
  cases h
  exact List.pairwise_singleton _ _

/-- Over a policy, the new name is put in and the action is kept. -/
theorem accepted_writes_carried_iff_renamed :
    WritesAsStaged renamePolicy
      (renameTrace (.obj [("_id", .str "p1"), ("action", .str "DROP")])) := by
  have hiff := accepted_writes_carried_iff (checkWritable_renamePolicy fun _ => "")
    (List.mem_singleton.2 rfl) ascending_renamePolicy
    (begins_renameTrace (.obj [("_id", .str "p1"), ("action", .str "DROP")]))
  refine hiff.2 ?_
  rintro kind id body hm before e sent answer after ht hwrite k current hk hs hfound
  left
  obtain ⟨site, response, raw, items, ⟨request, rfl, -, -, -⟩, hraw, hitems, hhead⟩ := hfound
  have hevent : sendEvent request (.ok response) ∈ renameTrace _ :=
    ht ▸ List.mem_append_right _ List.mem_cons_self
  have hresponse :
      response.json = .ok (.arr [.obj [("_id", .str "p1"), ("action", .str "DROP")]]) := by
    rcases List.mem_pair.1 hevent with h | h <;> cases h <;> rfl
  obtain rfl := Except.ok.inj (hresponse.symm.trans hraw)
  unfold fetchedItems at hitems
  rw [hs] at hitems
  cases hitems
  cases hhead
  rfl

/-- **The staged fields need not arrive.**  The controller shows something that is no object
under the policy's id; it is sent back as it is, and the new name is lost. -/
theorem not_accepted_writes_carried :
    ¬ ∀ (c : UnifiClient) (number : Number → String) (mutations : List StagedMutation)
      (m : StagedMutation) (t : List (Event ClientSig)),
      checkWritableFields number mutations = .ok () → m ∈ mutations →
      (c.applyMutation m).Begins t → WritesAsStaged m t := by
  intro h
  have hwrites := (h siteClient (fun _ => "") _ _ _ (checkWritable_renamePolicy _)
    (List.mem_singleton.2 rfl) (begins_renameTrace (.str "gone"))).writes [_] _ _ [] rfl rfl
  obtain ⟨sent, hsent, hcarries⟩ := hwrites.2 _ _ _ rfl
  cases hsent
  cases hcarries "name" _ rfl

end UnifiMcp

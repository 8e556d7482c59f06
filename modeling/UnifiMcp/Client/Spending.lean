import UnifiMcp.Changeset.Outcome
import UnifiMcp.Client.KindWrites
import UnifiMcp.Interaction.Budget
import UnifiMcp.Tools.Ops
import UnifiMcp.Tools.Resources
import UnifiMcp.Tools.SiteLegs

/-!
# How many requests a client sends

Each request has a price of one and nothing else has any.  A request to a private surface that is
answered with 404 asks for the version as well, and finding the configured site on the Integration
API takes one request at most.  From these the budgets of all methods follow: a scan stops at the
cap, since each page that does not end it is full, and carrying out a plan takes eight requests
for each of its mutations at most.
-/

namespace UnifiMcp

open Interaction

/-- A request costs one. -/
def ClientOp.price : ClientOp → Nat
  | .send _ => 1
  | .cachedSiteUuid | .cacheSiteUuid _ | .cachedVersion | .cacheVersion _ => 0

/-- The tariff of a client: no answer gives anything. -/
def clientTariff : Tariff ClientSig := ⟨ClientOp.price, fun _ => 0⟩

/-- The method sends no more than so many requests. -/
abbrev SendsAtMost {α : Type} (x : ClientM α) (n : Nat) : Prop := x.Affords clientTariff n

/-- What a request to a surface can take. -/
def ApiSurface.requestPrice (surface : ApiSurface) : Nat :=
  if surface.requiresPrivateScope then 2 else 1

/-- What finding the site for a surface can take. -/
def ApiSurface.sitePrice (surface : ApiSurface) : Nat := if surface = .supported then 1 else 0

/-- What making up the body of a write can take: on the Private v2 surface the resource is read
before it is updated. -/
def WriteBody.price (surface : ApiSurface) : WriteBody → Nat
  | .merged _ _ => if surface = .privateV2 then 2 else 0
  | .empty | .whole _ => 0

/-- On no surface does a request to a site that has to be found take more than two. -/
theorem ApiSurface.sitePrice_add_requestPrice_le (surface : ApiSurface) :
    surface.sitePrice + surface.requestPrice ≤ 2 := by
  cases surface <;> decide

section Legs

variable {α β γ : Type} {n m : Nat}

theorem sendsAtMost_leg {name disabled : String} {fetch : ClientM α} (h : SendsAtMost fetch n) :
    SendsAtMost (leg name disabled fetch) n := by
  refine h.attempt.bind_rest (Nat.le_refl n) fun r => ?_
  split
  · exact Fallible.affords_pure _ _
  · exact Fallible.affords_pure _ _
  · exact Fallible.affords_pure _ _
  · exact Fallible.affords_throw _ _

/-- What a leg takes is taken from the budget; reading its answer takes nothing. -/
theorem sendsAtMost_leg_bind {name disabled : String} {fetch : ClientM α} {absent : β}
    {reader : α → ClientM β} {f : LegResult α → β → ClientM γ} (hfetch : SendsAtMost fetch m)
    (hmn : m ≤ n) (hreader : ∀ a, (reader a).Asks clientTariff.Free)
    (hf : ∀ l b, SendsAtMost (f l b) (n - m)) :
    SendsAtMost (leg name disabled fetch >>= fun l => l.read absent reader >>= f l) n :=
  (sendsAtMost_leg hfetch).bind_rest hmn fun l => .free_bind (asks_read hreader l) (hf l)

end Legs

namespace UnifiClient

variable {c : UnifiClient} {tools : Toolkit}

/-! ## Requests -/

theorem sendsAtMost_send (request : Request) : SendsAtMost (send request) 1 := by
  refine Fallible.Affords.ask_bind (Nat.le_refl 1) fun ans => ?_
  cases ans with
  | ok response => exact Fallible.affords_pure _ _
  | error e => exact Fallible.affords_throw _ _

theorem sendsAtMost_fetchVersionIfAbsent : SendsAtMost c.fetchVersionIfAbsent 1 := by
  refine .free_bind (asks_clientAsk rfl) fun cached => ?_
  refine .free_bind (asks_unpoisoned _ cached) fun cached => ?_
  cases cached with
  | some version => exact Fallible.affords_pure _ _
  | none =>
      refine (sendsAtMost_send _).bind_rest (Nat.le_refl 1) fun response => ?_
      dsimp only
      split_ifs
      · exact Fallible.affords_throw _ _
      · cases response.json with
        | error message => exact Fallible.affords_throw _ _
        | ok info =>
            dsimp only
            cases info.getStr? "applicationVersion" with
            | none => exact Fallible.affords_throw _ _
            | some version =>
                refine .free_bind (asks_clientAsk rfl) fun ans => ?_
                exact .free_bind (asks_unpoisoned _ ans) fun _ => Fallible.affords_pure _ _

/-- Reporting an error response takes a request on a private surface only. -/
theorem sendsAtMost_handleErrorResponse (surface : ApiSurface) (path : String) (status : Nat)
    (text : String) :
    SendsAtMost (handleErrorResponse c surface path status text) (surface.requestPrice - 1) := by
  unfold handleErrorResponse
  by_cases hdrift : status = 404 ∧ surface.requiresPrivateScope
  · rw [if_pos hdrift, ApiSurface.requestPrice, if_pos hdrift.2]
    refine sendsAtMost_fetchVersionIfAbsent.attempt.bind_rest (Nat.le_refl 1) fun r => ?_
    cases r with
    | ok version => exact Fallible.affords_throw _ _
    | error e =>
        refine .free_bind (asks_clientAsk rfl) fun cached => ?_
        rcases cached with _ | (_ | version) <;> exact Fallible.affords_throw _ _
  · rw [if_neg hdrift]
    exact Fallible.affords_throw _ _

section Request

variable {method : Method} {surface : ApiSurface} {template : String}
  {params query : List (String × String)} {body : Option Json}

/-- **A request takes one, and a 404 on a private surface another.** -/
theorem sendsAtMost_request :
    SendsAtMost (c.request method surface template params query body) surface.requestPrice := by
  have hprice : 1 ≤ surface.requestPrice := by cases surface <;> decide
  refine .free_bind (Fallible.asks_ofExcept _) fun _ => ?_
  refine .free_bind (Fallible.asks_ofExcept _) fun path => ?_
  refine (sendsAtMost_send _).bind_rest hprice fun response => ?_
  split_ifs
  · exact sendsAtMost_handleErrorResponse surface path _ _
  · exact Fallible.affords_ofExcept _ _

end Request

theorem sendsAtMost_defaultSiteFor (surface : ApiSurface) :
    SendsAtMost (c.defaultSiteFor surface) surface.sitePrice := by
  cases surface with
  | privateV1 | privateV2 | cloud => exact Fallible.affords_pure _ _
  | supported =>
      refine .free_bind (asks_clientAsk rfl) fun cached => ?_
      refine .free_bind (asks_unpoisoned _ cached) fun cached => ?_
      cases cached with
      | some uuid => exact Fallible.affords_pure _ _
      | none =>
          refine sendsAtMost_request.bind_rest (Nat.le_refl 1) fun sites => ?_
          refine .free_bind (Fallible.asks_ofExcept _) fun items => ?_
          cases findSiteUuid items c.controller.site with
          | none => exact Fallible.affords_throw _ _
          | some uuid =>
              refine .free_bind (asks_clientAsk rfl) fun ans => ?_
              exact .free_bind (asks_unpoisoned _ ans) fun _ => Fallible.affords_pure _ _

/-- A request to a site that has to be found takes two at most, on whatever surface. -/
theorem sendsAtMost_site_bind {α : Type} {surface : ApiSurface} {f : String → ClientM α}
    (hf : ∀ site, SendsAtMost (f site) surface.requestPrice) :
    SendsAtMost (c.defaultSiteFor surface >>= f) 2 :=
  ((sendsAtMost_defaultSiteFor surface).bind hf).mono surface.sitePrice_add_requestPrice_le

/-! ## Reads -/

theorem sendsAtMost_siteOr (site : Option String) (surface : ApiSurface) :
    SendsAtMost (c.siteOr site surface) surface.sitePrice := by
  cases site with
  | some site => exact Fallible.affords_pure _ _
  | none => exact sendsAtMost_defaultSiteFor surface

theorem sendsAtMost_listResources (args : ListResourcesArgs) :
    SendsAtMost (c.listResources tools args) 2 := by
  refine .free_bind (Fallible.asks_ofExcept _) fun page => ?_
  refine ((sendsAtMost_siteOr _ _).bind fun site => ?_).mono
    args.kind.surface.sitePrice_add_requestPrice_le
  refine sendsAtMost_request.bind_rest (Nat.le_refl _) fun raw => ?_
  exact .free_bind (Fallible.asks_ofExcept _) fun _ => Fallible.affords_pure _ _

theorem sendsAtMost_getResource (args : GetResourceArgs) :
    SendsAtMost (c.getResource tools args) 2 := by
  refine ((sendsAtMost_siteOr _ _).bind fun site => ?_).mono
    args.kind.surface.sitePrice_add_requestPrice_le
  refine sendsAtMost_request.bind_rest (Nat.le_refl _) fun raw => ?_
  exact .free_bind (Fallible.asks_ofExcept _) fun _ => Fallible.affords_pure _ _

theorem sendsAtMost_listSites (args : ListSitesArgs) : SendsAtMost (c.listSites args) 1 :=
  sendsAtMost_request.bind_rest (Nat.le_refl 1) fun _ => Fallible.affords_ofExcept _ _

theorem sendsAtMost_queryStats (args : QueryStatsArgs) :
    SendsAtMost (c.queryStats tools args) 2 := by
  have hrest : ∀ site, SendsAtMost (do
      let raw ← c.getAt .privateV1 args.subject.endpoint site (windowQuery args.start args.end)
      let data ← enveloped raw
      Fallible.ofExcept (statsPage tools.toRedactor tools.page args.subject data args.offset
        args.limit) : ClientM Json) 2 := fun site =>
    sendsAtMost_request.bind_rest (Nat.le_refl 2) fun raw =>
      .free_bind (asks_enveloped raw) fun _ => Fallible.affords_ofExcept _ _
  unfold queryStats
  cases args.site with
  | some site => exact hrest site
  | none => exact (sendsAtMost_defaultSiteFor _).bind_rest (by decide) hrest

/-- How many pages a scan can still read when so many items are scanned: one, and then one for
each full page below the cap. -/
def pagesLeft (scanned : Nat) : Nat := 1 + (searchScanCap - 1 - scanned) / searchPageSize

/-- **A scan reads no more pages than fit below the cap**, whatever it is answered. -/
theorem sendsAtMost_scan (path siteUuid : String) (offset : Nat) (all : List Json) :
    SendsAtMost (c.scan path siteUuid offset all) (pagesLeft all.length) := by
  induction offset, all using scan.induct with
  | case1 offset all ih =>
      rw [UnifiClient.scan]
      have hpage : SendsAtMost (c.fetchPage path siteUuid offset) 1 :=
        sendsAtMost_request.bind_rest (Nat.le_refl 1) fun raw => .of_free (asks_enveloped raw) _
      have hone : 1 ≤ pagesLeft all.length := Nat.le_add_right 1 _
      refine hpage.bind_rest hone fun page => ?_
      dsimp only
      split_ifs with hcap hlast
      · exact Fallible.affords_pure _ _
      · exact Fallible.affords_pure _ _
      · -- the page was full and the cap is not reached, so that one page less is left
        refine (ih page hcap hlast).mono ?_
        simp only [List.length_append, searchScanCap, searchPageSize, pagesLeft] at hcap hlast ⊢
        omega

theorem sendsAtMost_scanAndFilter (path siteUuid query : String) (limit : Nat) :
    SendsAtMost (c.scanAndFilter tools path siteUuid query limit) 25 :=
  (sendsAtMost_scan path siteUuid 0 []).bind_rest (by decide) fun _ => Fallible.affords_pure _ _

/-! ## Reports -/

theorem asks_searchMatches {α : Type} {P : ClientOp → Prop}
    (parse : Json → Except UnifiError (List α)) (toJson : α → Json) (result : ScanResult) :
    (searchMatches parse toJson result).Asks P :=
  (Fallible.asks_ofExcept _).bind fun _ => Fallible.asks_pure _

theorem sendsAtMost_search (args : SearchArgs) : SendsAtMost (c.search tools args) 53 := by
  refine (sendsAtMost_defaultSiteFor _).bind_rest (by decide) fun uuid => ?_
  refine sendsAtMost_leg_bind (sendsAtMost_scanAndFilter _ _ _ _) (by decide)
    (asks_searchMatches _ _) fun stations _ => ?_
  refine sendsAtMost_leg_bind (sendsAtMost_scanAndFilter _ _ _ _) (by decide)
    (asks_searchMatches _ _) fun devices _ => ?_
  refine sendsAtMost_leg_bind sendsAtMost_request (by decide) ?_ fun sites _ => ?_
  · exact fun _ => (Fallible.asks_ofExcept _).bind fun _ => Fallible.asks_pure _
  dsimp only
  split_ifs
  · exact Fallible.affords_throw _ _
  · exact Fallible.affords_pure _ _

theorem sendsAtMost_siteHealthReport (args : SiteHealthReportArgs) :
    SendsAtMost (c.siteHealthReport tools args) 6 := by
  refine (sendsAtMost_defaultSiteFor _).bind_rest (by decide) fun uuid => ?_
  refine sendsAtMost_leg_bind sendsAtMost_request (by decide) (asks_projectedLeg tools _)
    fun devices _ => ?_
  refine sendsAtMost_leg_bind sendsAtMost_request (by decide) ?_ fun health _ => ?_
  · exact fun val => (asks_enveloped val).bind fun _ => Fallible.asks_pure _
  refine sendsAtMost_leg_bind sendsAtMost_request (by decide) asks_enveloped fun stats _ => ?_
  dsimp only
  split
  · exact Fallible.affords_throw _ _
  · exact Fallible.affords_ofExcept _ _

theorem sendsAtMost_topologyReport (args : TopologyReportArgs) :
    SendsAtMost (c.topologyReport tools args) 6 := by
  refine (sendsAtMost_defaultSiteFor _).bind_rest (by decide) fun uuid => ?_
  refine sendsAtMost_leg_bind sendsAtMost_request (by decide) (fun _ => Fallible.asks_pure _)
    fun edges _ => ?_
  refine sendsAtMost_leg_bind sendsAtMost_request (by decide) (asks_projectedLeg tools _)
    fun devices _ => ?_
  refine sendsAtMost_leg_bind sendsAtMost_request (by decide) (asks_projectedLeg tools _)
    fun networks _ => ?_
  dsimp only
  split_ifs
  · exact Fallible.affords_throw _ _
  · exact Fallible.affords_ofExcept _ _

theorem sendsAtMost_trafficFlowReport (args : TrafficFlowReportArgs) :
    SendsAtMost (c.trafficFlowReport tools args) 4 := by
  refine (sendsAtMost_defaultSiteFor _).bind_rest (by decide) fun uuid => ?_
  refine sendsAtMost_leg_bind sendsAtMost_request (by decide) (asks_projectedLeg tools _)
    fun clients _ => ?_
  refine sendsAtMost_leg_bind sendsAtMost_request (by decide) ?_ fun stats _ => ?_
  · exact fun val => (asks_enveloped val).bind fun _ => Fallible.asks_pure _
  dsimp only
  split_ifs
  · exact Fallible.affords_throw _ _
  · exact Fallible.affords_ofExcept _ _

theorem sendsAtMost_clientTroubleshoot (args : ClientTroubleshootArgs) :
    SendsAtMost (c.clientTroubleshoot tools args) 8 := by
  refine (sendsAtMost_defaultSiteFor _).bind_rest (by decide) fun uuid => ?_
  refine (sendsAtMost_leg sendsAtMost_request).bind_rest (by decide) fun stations => ?_
  refine (sendsAtMost_leg sendsAtMost_request).bind_rest (by decide) fun devices => ?_
  refine (sendsAtMost_leg sendsAtMost_request).bind_rest (by decide) fun policies => ?_
  refine (sendsAtMost_leg sendsAtMost_request).bind_rest (by decide) fun zones => ?_
  dsimp only
  split_ifs
  · exact Fallible.affords_throw _ _
  · exact .free_bind (Fallible.asks_ofExcept _) fun _ => Fallible.affords_pure _ _

/-! ## Actions -/

theorem sendsAtMost_deviceCommand (args : DeviceActionArgs) (site : String) :
    SendsAtMost (c.deviceCommand args site) 2 := by
  have hfind : SendsAtMost (findPrivateDevice c site args.device) 2 := by
    refine sendsAtMost_request.bind_rest (Nat.le_refl 2) fun raw => ?_
    refine .free_bind (Fallible.asks_ofExcept _) fun data => ?_
    split
    · exact Fallible.affords_pure _ _
    · exact Fallible.affords_throw _ _
  unfold deviceCommand
  split
  · exact Fallible.affords_pure _ _
  · exact Fallible.affords_pure _ _
  · exact hfind.bind_rest (Nat.le_refl 2) fun _ => Fallible.affords_ofExcept _ _
  · exact hfind.bind_rest (Nat.le_refl 2) fun _ => Fallible.affords_ofExcept _ _
  · exact hfind.bind_rest (Nat.le_refl 2) fun _ => Fallible.affords_ofExcept _ _

theorem sendsAtMost_deviceAction (args : DeviceActionArgs) :
    SendsAtMost (c.deviceAction args) 4 := by
  refine .free_bind (Fallible.asks_ofExcept _) fun _ => ?_
  exact (sendsAtMost_deviceCommand args _).bind_rest (by decide) fun _ => sendsAtMost_request

theorem sendsAtMost_clientAction (args : ClientActionArgs) :
    SendsAtMost (c.clientAction args) 2 :=
  .free_bind (Fallible.asks_ofExcept _) fun _ => sendsAtMost_request

theorem sendsAtMost_backupAction (args : BackupActionArgs) :
    SendsAtMost (c.backupAction args) 2 := by
  refine .free_bind (Fallible.asks_ofExcept _) fun _ => ?_
  dsimp only
  cases args.action with
  | list =>
      refine sendsAtMost_request.bind_rest (Nat.le_refl 2) fun raw => ?_
      exact .free_bind (Fallible.asks_ofExcept _) fun _ => Fallible.affords_pure _ _
  | trigger => exact sendsAtMost_request

/-! ## Plans -/

theorem sendsAtMost_fetchResource (kind id : String) : SendsAtMost (c.fetchResource kind id) 2 := by
  refine .free_bind (asks_parseKind kind) fun k => ?_
  refine sendsAtMost_site_bind fun site => ?_
  refine sendsAtMost_request.attempt.bind_rest (Nat.le_refl _) fun response => ?_
  split
  · exact .free_bind (Fallible.asks_ofExcept _) fun _ => Fallible.affords_pure _ _
  · exact Fallible.affords_pure _ _
  · exact Fallible.affords_pure _ _
  · exact Fallible.affords_throw _ _

theorem sendsAtMost_captureResource (kind id : String) :
    SendsAtMost (Preimage.captureResource c kind id) 2 := by
  refine .free_bind (Fallible.asks_ofExcept _) fun k => ?_
  refine sendsAtMost_site_bind fun site => ?_
  refine sendsAtMost_request.attempt.bind_rest (Nat.le_refl _) fun answer => ?_
  exact .free_bind (Fallible.asks_ofExcept _) fun _ => Fallible.affords_ofExcept _ _

/-- A pre-image takes two requests for each mutation. -/
theorem sendsAtMost_captureEntries (mutations : List StagedMutation) :
    SendsAtMost (Preimage.captureEntries c mutations) (2 * mutations.length) := by
  induction mutations with
  | nil => exact Fallible.affords_pure _ _
  | cons m rest ih =>
      rw [List.length_cons]
      cases m with
      | create kind body => exact ih.mono (by omega)
      | restore backupId => exact ih.mono (by omega)
      | update kind id body =>
          refine (sendsAtMost_captureResource kind id).bind_rest (by omega) fun resource => ?_
          exact (ih.mono (by omega)).bind_rest (Nat.le_refl _) fun _ => Fallible.affords_pure _ _
      | delete kind id =>
          refine (sendsAtMost_captureResource kind id).bind_rest (by omega) fun resource => ?_
          exact (ih.mono (by omega)).bind_rest (Nat.le_refl _) fun _ => Fallible.affords_pure _ _

theorem sendsAtMost_capturePreimage (mutations : List StagedMutation) :
    SendsAtMost (Preimage.capturePreimage c mutations) (2 * mutations.length) :=
  (sendsAtMost_captureEntries mutations).bind_rest (Nat.le_refl _) fun _ =>
    Fallible.affords_pure _ _

theorem sendsAtMost_writeBody (kind : String) (k : ResourceKind) (body : WriteBody) :
    SendsAtMost (c.writeBody kind k body) (body.price k.surface) := by
  cases body with
  | empty | whole value => exact Fallible.affords_pure _ _
  | merged id staged =>
      refine Fallible.Affords.bind_rest ?_ (Nat.le_refl _) fun _ => Fallible.affords_pure _ _
      unfold mergedBody WriteBody.price
      by_cases hprivate : k.surface = .privateV2
      · rw [if_pos hprivate, if_pos hprivate]
        refine (sendsAtMost_fetchResource kind id).bind_rest (Nat.le_refl 2) fun current => ?_
        cases current with
        | some current => exact Fallible.affords_pure _ _
        | none => exact Fallible.affords_throw _ _
      · rw [if_neg hprivate]
        exact Fallible.affords_pure _ _

/-- A write takes what finding the site, making up the body and its own request take. -/
theorem sendsAtMost_write {α : Type} {w : KindWrite α} {n : Nat} (hprice : ∀ surface : ApiSurface,
    surface.sitePrice + (w.body.price surface + surface.requestPrice) ≤ n) :
    SendsAtMost (c.write w) n := by
  refine .free_bind (asks_parseKind w.kind) fun k => ?_
  refine .free_bind (Fallible.asks_ofExcept _) fun _ => ?_
  refine ((sendsAtMost_defaultSiteFor k.surface).bind fun site =>
    (sendsAtMost_writeBody w.kind k w.body).bind fun body => ?_).mono (hprice k.surface)
  exact sendsAtMost_request.bind_rest (Nat.le_refl _) fun _ => Fallible.affords_ofExcept _ _

/-- An update on the Private v2 surface takes four, and nothing takes more. -/
theorem sendsAtMost_applyMutation (m : StagedMutation) : SendsAtMost (c.applyMutation m) 4 := by
  refine applyMutation_of (fun x => SendsAtMost x 4) (fun _ => Fallible.affords_throw _ _)
    fun w _ => sendsAtMost_write fun surface => ?_
  cases w.body with
  | empty | whole value =>
      rw [WriteBody.price, Nat.zero_add]
      exact le_trans surface.sitePrice_add_requestPrice_le (by decide)
  | merged id staged =>
      rw [WriteBody.price]
      cases surface <;> decide

/-- Nothing is read before it is rolled back. -/
theorem sendsAtMost_rollbackMutation (m : StagedMutation) (priorValue : Option Json)
    (createdId : Option String) : SendsAtMost (c.rollbackMutation priorValue createdId m) 2 := by
  refine rollbackMutation_of (fun x => SendsAtMost x 2) (fun _ => Fallible.affords_throw _ _)
    (fun w hw => sendsAtMost_write fun surface => ?_) priorValue
  have hfree : w.body.price surface = 0 := by
    cases hbody : w.body with
    | empty | whole value => rfl
    | merged id staged => exact absurd hbody (hw.body id staged)
  rw [hfree, Nat.zero_add]
  exact surface.sitePrice_add_requestPrice_le

end UnifiClient

/-- What a read of one resource takes. -/
def fetchTariff : Tariff FetchSig := ⟨fun _ => 2, fun _ => 0⟩

theorem affords_fetch (kind id : String) : (FetchM.fetch kind id).Affords fetchTariff 2 :=
  ⟨Nat.le_refl 2, fun _ => trivial⟩

theorem affords_preimageMatches (preimage : Preimage) (mutations : List StagedMutation) :
    (preimageMatches preimage mutations).Affords fetchTariff (2 * mutations.length) := by
  induction mutations with
  | nil => exact Fallible.affords_pure _ _
  | cons m rest ih =>
      have hupdate : ∀ kind id body,
          (preimageMatches preimage (.update kind id body :: rest)).Affords fetchTariff
            (2 * rest.length + 2) := by
        intro kind id body
        unfold preimageMatches
        cases preimage.getResource id with
        | none => exact Fallible.affords_pure _ _
        | some recorded =>
            refine (affords_fetch kind id).bind_rest (by omega) fun live => ?_
            cases live with
            | none => exact Fallible.affords_pure _ _
            | some live =>
                dsimp only
                split_ifs
                · exact ih
                · exact Fallible.affords_pure _ _
      rw [List.length_cons, Nat.mul_add, Nat.mul_one]
      cases m with
      | create kind body => exact ih.mono (by omega)
      | restore backupId => exact ih.mono (by omega)
      | update kind id body => exact hupdate kind id body
      | delete kind id => exact hupdate kind id .null

theorem affords_verifyMutation (createdIds : CreatedIds) (index : Nat) (m : StagedMutation) :
    (verifyMutation createdIds index m).Affords fetchTariff 2 := by
  unfold verifyMutation
  split
  · split
    · exact Fallible.affords_pure _ _
    · refine (affords_fetch _ _).attempt.bind_rest (Nat.le_refl 2) fun fetched => ?_
      split
      · exact Fallible.affords_pure _ _
      · exact Fallible.affords_pure _ _
      · exact Fallible.affords_throw _ _
  · refine (affords_fetch _ _).attempt.bind_rest (Nat.le_refl 2) fun fetched => ?_
    split
    · split
      · split_ifs <;> exact Fallible.affords_pure _ _
      · exact Fallible.affords_pure _ _
    · exact Fallible.affords_pure _ _
    · exact Fallible.affords_throw _ _
  · refine (affords_fetch _ _).attempt.bind_rest (Nat.le_refl 2) fun fetched => ?_
    split
    · exact Fallible.affords_pure _ _
    · exact Fallible.affords_pure _ _
    · exact Fallible.affords_throw _ _
  · exact Fallible.affords_pure _ _

theorem affords_verifyLoop (createdIds : CreatedIds) (index : Nat)
    (mutations : List StagedMutation) :
    (verifyLoop createdIds index mutations).Affords fetchTariff (2 * mutations.length) := by
  induction mutations generalizing index with
  | nil => exact Fallible.affords_pure _ _
  | cons m rest ih =>
      rw [List.length_cons]
      refine (affords_verifyMutation createdIds index m).bind_rest (by omega) fun failure => ?_
      refine ((ih (index + 1)).mono (by omega)).bind_rest (Nat.le_refl _) fun failures => ?_
      exact Fallible.affords_pure _ _

theorem affords_verifyApplied (mutations : List StagedMutation) (createdIds : CreatedIds) :
    (verifyApplied mutations createdIds).Affords fetchTariff (2 * mutations.length) := by
  refine (affords_verifyLoop createdIds 0 mutations).bind_rest (Nat.le_refl _) fun failed => ?_
  split_ifs
  · exact Fallible.affords_pure _ _
  · exact Fallible.affords_throw _ _

/-- What an operation of a controller takes. -/
def ControllerOp.price : ControllerOp → Nat
  | .applyMutation _ _ => 4
  | .rollbackMutation _ _ _ _ => 2
  | .preimageMatches _ mutations => 2 * mutations.length
  | .verifyApplied mutations _ => 2 * mutations.length

/-- The tariff of the operations of a controller. -/
def controllerTariff : Tariff ControllerSig := ⟨ControllerOp.price, fun _ => 0⟩

theorem affords_applyLoop (index : Nat) (mutations : List StagedMutation) (progress : Progress) :
    (applyLoop index mutations progress).Affords controllerTariff (4 * mutations.length) := by
  induction mutations generalizing index progress with
  | nil => exact Program.affords_done _ _
  | cons m rest ih =>
      rw [List.length_cons]
      refine ⟨show 4 ≤ _ by omega, fun ans => ?_⟩
      cases ans with
      | ok createdId =>
          refine (ih (index + 1) _).mono ?_
          change _ ≤ 4 * (rest.length + 1) - 4 + 0
          omega
      | error e => exact Program.affords_done _ _

theorem affords_rollbackLoop (preimage : Preimage) (createdIds : CreatedIds)
    (written : List (StagedMutation × Nat)) (failures : List String) :
    (rollbackLoop preimage createdIds written failures).Affords controllerTariff
      (2 * written.length) := by
  induction written generalizing failures with
  | nil => exact Program.affords_done _ _
  | cons w rest ih =>
      obtain ⟨m, forwardIndex⟩ := w
      rw [List.length_cons]
      cases m with
      | restore backupId => exact (ih _).mono (by omega)
      | create _ _ | update _ _ _ | delete _ _ =>
          refine ⟨show 2 ≤ _ by omega, fun ans => ?_⟩
          cases ans with
          | ok done =>
              refine (ih _).mono ?_
              change _ ≤ 2 * (rest.length + 1) - 2 + 0
              omega
          | error e =>
              refine (ih _).mono ?_
              change _ ≤ 2 * (rest.length + 1) - 2 + 0
              omega

/-- No more has been written than the plan holds. -/
theorem length_succeeded_le {index : Nat} {mutations : List StagedMutation}
    {t : List (Event ControllerSig)} {progress : Progress}
    (h : (applyLoop index mutations ⟨[], [], [], []⟩).Runs t progress) :
    progress.succeeded.length ≤ mutations.length := by
  obtain ⟨done, ⟨rfl, -, rfl⟩ | ⟨m, rest, e, rfl, -, rfl⟩⟩ := runs_applyLoop.1 h
  · simp
  · simp

/-- **Applying a plan takes eight requests for each of its mutations**: two to see that nothing has
changed, four to write it, and two to verify it or to take it back. -/
theorem affords_applySequentially (preimage : Preimage) (mutations : List StagedMutation) :
    (applySequentially preimage mutations).Affords controllerTariff (8 * mutations.length) := by
  refine ⟨show 2 * mutations.length ≤ _ by omega, fun ans => ?_⟩
  refine Program.Affords.mono (n := 4 * mutations.length + 2 * mutations.length) ?_
    (show _ ≤ 8 * mutations.length - 2 * mutations.length + 0 by omega)
  rcases ans with e | matching
  · exact Program.affords_done _ _
  cases matching with
  | false => exact Program.affords_done _ _
  | true =>
      refine (affords_applyLoop 0 mutations _).bind_of_runs fun t progress hloop => ?_
      split_ifs
      · exact ⟨show 2 * mutations.length ≤ _ by omega, fun _ => trivial⟩
      · have hlength := length_succeeded_le hloop
        have hrollback := affords_rollbackLoop preimage progress.createdIds
          progress.succeeded.zipIdx.reverse []
        rw [List.length_reverse, List.length_zipIdx] at hrollback
        refine Program.Affords.mono (n := 2 * progress.succeeded.length + 0 + 0) ?_ (by omega)
        exact (hrollback.bind fun _ => Program.affords_done _ 0).bind fun _ =>
          Program.affords_done _ 0

theorem affords_applyOver (c : UnifiClient) (preimage : Preimage)
    (mutations : List StagedMutation) :
    (applyOver c preimage mutations).Affords clientTariff (8 * mutations.length) := by
  have hfetch : ∀ op, (c.fetchOps op).Affords clientTariff 2 := fun op =>
    UnifiClient.sendsAtMost_fetchResource op.kind op.id
  refine Program.Affords.interpret (fun _ => rfl) (fun op => ?_)
    (affords_applySequentially preimage mutations)
  cases op with
  | applyMutation index m => exact UnifiClient.sendsAtMost_applyMutation m
  | rollbackMutation index m priorValue createdId =>
      exact UnifiClient.sendsAtMost_rollbackMutation m priorValue createdId
  | preimageMatches preimage mutations =>
      exact Program.Affords.interpret (fun _ => rfl) hfetch
        (affords_preimageMatches preimage mutations)
  | verifyApplied mutations createdIds =>
      exact Program.Affords.interpret (fun _ => rfl) hfetch
        (affords_verifyApplied mutations createdIds)

end UnifiMcp

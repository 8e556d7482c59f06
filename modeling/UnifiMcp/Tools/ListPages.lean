import UnifiMcp.Collections.Pages
import UnifiMcp.Server.Paging
import UnifiMcp.Tools.ListHides

/-!
# Listing a collection page by page

The Integration API answers the window a request names; the two private surfaces answer the
whole collection, and the page is cut after the answer was parsed.  Either way the pages at
0, `limit`, `2 * limit`, … put together are what parsing, filtering and projecting the whole
collection gives (`listResources_pages`): every parser picks items and reads them one by one
(`exists_readsItems`), and no kind whose pages are cut upstream picks items.
-/

namespace UnifiMcp

open Interaction Collections

/-! ## Parsers read item by item -/

/-- A collection in one piece, in the envelope of its surface. -/
def wholeCollection (k : ResourceKind) (items : List Json) : Json :=
  match k.surface with
  | .privateV2 => .arr items
  | .supported | .privateV1 | .cloud => .obj [("data", .arr items)]

theorem collectionItems_wholeCollection (k : ResourceKind) (items : List Json) :
    collectionItems k.surface (wholeCollection k items) = .ok items := by
  cases k <;> rfl

/-- The parser of a kind picks items of the answer and reads them one by one; where the
pages are cut upstream, it picks all of them. -/
structure ReadsItems (number : Number → String) (k : ResourceKind) (select : Json → Bool)
    (read : Json → Except UnifiError Json) : Prop where
  parse : ∀ {raw items}, collectionItems k.surface raw = .ok items →
    parseResourceList number k raw = ((items.filter select).mapM read).map .arr
  all : k.surface = .supported → ∀ item, select item = true

section ItemByItem

variable {α : Type} {number : Number → String} {k : ResourceKind} {what : String}
  {ofJson : Json → Except DecodeError α} {toJson : α → Json} {raw : Json} {items : List Json}

theorem rendered_mapM (f : Json → Except UnifiError α) (items : List Json) :
    rendered toJson (items.mapM f) = (items.mapM fun item => (f item).map toJson).map .arr := by
  rw [mapM_map_ok, rendered]
  cases items.mapM f with
  | error e => rfl
  | ok read => rfl

/-- Read one item through the reader of its record. -/
def readItem (what : String) (ofJson : Json → Except DecodeError α) (toJson : α → Json)
    (item : Json) : Except UnifiError Json :=
  ((ofJson item).mapError fun e => .malformed s!"{what} parse failed: {e.toString}").map toJson

theorem rendered_parseItems (h : unwrapEnvelopedData raw = .ok items) :
    rendered toJson (parseItems what ofJson raw) =
      ((items.filter fun _ => true).mapM (readItem what ofJson toJson)).map .arr := by
  rw [parseItems, h, List.filter_true]
  exact rendered_mapM _ items

theorem rendered_parseBareItems (h : unwrapPrivateV2Data raw = .ok items) :
    rendered toJson (parseBareItems what ofJson raw) =
      ((items.filter fun _ => true).mapM (readItem what ofJson toJson)).map .arr := by
  rw [parseBareItems, h, List.filter_true]
  exact rendered_mapM _ items

theorem rendered_parseDhcpReservations (h : unwrapEnvelopedData raw = .ok items) :
    rendered DhcpReservation.toJson (parseDhcpReservations raw) =
      ((items.filter usesFixedIp).mapM
        (readItem "dhcp reservation" DhcpReservation.ofJson DhcpReservation.toJson)).map .arr := by
  rw [parseDhcpReservations, h]
  exact rendered_mapM _ _

/-- **Every parser reads item by item.** -/
theorem exists_readsItems (number : Number → String) (k : ResourceKind) :
    ∃ select read, ReadsItems number k select read := by
  cases k with
  | dhcpReservation => exact ⟨_, _, fun h => rendered_parseDhcpReservations h, nofun⟩
  | firewallPolicy => exact ⟨_, _, fun h => rendered_parseBareItems h, fun _ _ => rfl⟩
  | firewallZone => exact ⟨_, _, fun h => rendered_parseBareItems h, fun _ _ => rfl⟩
  | trafficRoute => exact ⟨_, _, fun h => rendered_parseBareItems h, fun _ _ => rfl⟩
  | station => exact ⟨_, _, fun h => rendered_parseItems h, fun _ _ => rfl⟩
  | device => exact ⟨_, _, fun h => rendered_parseItems h, fun _ _ => rfl⟩
  | network => exact ⟨_, _, fun h => rendered_parseItems h, fun _ _ => rfl⟩
  | wlan => exact ⟨_, _, fun h => rendered_parseItems h, fun _ _ => rfl⟩
  | portProfile => exact ⟨_, _, fun h => rendered_parseItems h, fun _ _ => rfl⟩
  | firewallGroup => exact ⟨_, _, fun h => rendered_parseItems h, fun _ _ => rfl⟩
  | radiusProfile => exact ⟨_, _, fun h => rendered_parseItems h, fun _ _ => rfl⟩
  | firewallRule => exact ⟨_, _, fun h => rendered_parseItems h, fun _ _ => rfl⟩
  | portForward => exact ⟨_, _, fun h => rendered_parseItems h, fun _ _ => rfl⟩
  | staticRoute => exact ⟨_, _, fun h => rendered_parseItems h, fun _ _ => rfl⟩

end ItemByItem

/-! ## A controller with a collection -/

/-- The items a surface answers a window with.  Only the Integration API honours it. -/
def answered (surface : ApiSurface) (items : List Json) (offset limit : Nat) : List Json :=
  if surface = .supported then (items.drop offset).take limit else items

/-- A controller that holds a collection of a kind at a site. -/
def ServesCollection (c : UnifiClient) (k : ResourceKind) (site : String) (items : List Json)
    (upstream : Upstream) : Prop :=
  ∀ path offset limit, c.expandPath k.pathTemplate [("site", site)] = .ok path →
    ∃ response raw,
      upstream (UnifiClient.requestOf c .get k.pathTemplate [("site", site)]
        [("offset", toString offset), ("limit", toString limit)] none path) = .ok response ∧
      response.status < 300 ∧ response.json = .ok raw ∧
      collectionItems k.surface raw = .ok (answered k.surface items offset limit)

/-- The items of a list that is answered. -/
def itemsOf : Json → List Json
  | .arr items => items
  | item => [item]

section Listing

variable {c : UnifiClient} {tools : Toolkit} {k : ResourceKind} {items : List Json} {whole : Json}

/-- What the whole collection parses to is an array. -/
theorem parseResourceList_eq_arr
    (h : parseResourceList tools.number k (wholeCollection k items) = .ok whole) :
    whole = .arr (itemsOf whole) := by
  obtain ⟨select, read, hreads⟩ := exists_readsItems tools.number k
  rw [hreads.parse (collectionItems_wholeCollection k items)] at h
  obtain ⟨parsed, -, rfl⟩ := map_eq_ok.1 h
  rfl

/-- A list is projected item by item. -/
theorem projectResourceList_arr (hmany : ∀ allow items,
      tools.projectMany allow (.arr items) = .arr (items.map (tools.project allow)))
    (k : ResourceKind) (items : List Json) :
    tools.projectResourceList k (.arr items) = .arr (items.map (tools.projectResource k)) := by
  unfold Redactor.projectResourceList Redactor.projectResource
  cases allowlistFor k with
  | none => rfl
  | some allow => exact hmany allow items

/-- The page of an answer is the window of the parsed collection. -/
theorem page_of_answered (window : PageWindow) {raw : Json}
    (hwhole : parseResourceList tools.number k (wholeCollection k items) = .ok whole)
    (hraw : collectionItems k.surface raw =
      .ok (answered k.surface items window.start.toNat window.size.toNat)) :
    ∃ parsed, parseResourceList tools.number k raw = .ok parsed ∧
      applyPageIfUpstreamIgnoredIt k.surface window parsed =
        .arr (((itemsOf whole).drop window.start.toNat).take window.size.toNat) := by
  obtain ⟨select, read, hreads⟩ := exists_readsItems tools.number k
  rw [hreads.parse (collectionItems_wholeCollection k items)] at hwhole
  rw [hreads.parse hraw]
  obtain ⟨parsed, hparsed, hwhole⟩ := map_eq_ok.1 hwhole
  by_cases hsurface : k.surface = .supported
  · -- nothing is left out before the page is cut, so the window of the items is that of theirs
    have hselect : ∀ l : List Json, l.filter select = l := fun l =>
      List.filter_eq_self.2 fun item _ => hreads.all hsurface item
    rw [hselect] at hparsed
    refine ⟨_, ?_, if_pos hsurface⟩
    rw [answered, if_pos hsurface, hselect, mapM_window hparsed, ← hwhole]
    rfl
  · refine ⟨.arr parsed, ?_, ?_⟩
    · rw [answered, if_neg hsurface, hparsed]
      rfl
    · rw [applyPageIfUpstreamIgnoredIt, if_neg hsurface, ← hwhole]
      rfl

end Listing

/-! ## The pages put together -/

/-- `mecmcp_openapi::page` accepts the windows of a walk over `total` items, the last of
which may lie behind the end, and grants the window it was asked for. -/
structure GrantsWalk (page : PageFn) (limit : Option UInt32) (total : Nat) : Prop where
  positive : 0 < pageSize limit
  window : ∀ pages, pages * pageSize limit ≤ total → ∃ w : PageWindow,
    page (UInt64.ofNat (pages * pageSize limit)) (limit.getD defaultPageSize).toUInt64 = .ok w ∧
      w.start.toNat = pages * pageSize limit ∧ w.size.toNat = pageSize limit

namespace UnifiClient

variable (c : UnifiClient) (tools : Toolkit)

/-- The items `list_resources` answers at an offset, and the caches it leaves. -/
def pageAt (upstream : Upstream) (args : ListResourcesArgs) (offset : Nat) (caches : Caches) :
    Except UnifiError (List Json) × Caches :=
  let out := (c.listResources tools { args with offset := some (UInt64.ofNat offset) }).eval
    upstream caches
  (out.1.map itemsOf, out.2.2)

variable {c tools} {upstream : Upstream} {args : ListResourcesArgs} {site : String}
  {items : List Json} {whole : Json}

/-- A site that was found is found again. -/
theorem siteOr_again {surface : ApiSurface} {caches caches' : Caches}
    {site? : Option String} {t : List (Event ClientSig)}
    (h : (c.siteOr site? surface).eval upstream caches = (.ok site, t, caches')) :
    ∃ t', (c.siteOr site? surface).eval upstream caches' = (.ok site, t', caches') := by
  cases site? with
  | some named =>
      cases h
      exact ⟨[], rfl⟩
  | none => exact defaultSiteFor_again h

variable (c upstream args site) in
/-- The site of a listing is found from these caches. -/
def FindsSite (caches : Caches) : Prop :=
  ∃ t caches', (c.siteOr args.site args.kind.surface).eval upstream caches =
    (.ok site, t, caches')

variable (args) in
/-- What is listed is the window of the parsed and projected collection. -/
theorem eval_listResources (hmany : ∀ allow items,
      tools.projectMany allow (.arr items) = .arr (items.map (tools.project allow)))
    (hpermitted : ensureSurfacePermitted c.controller args.kind.surface = .ok ())
    (hexpand : ∃ path, c.expandPath args.kind.pathTemplate [("site", site)] = .ok path)
    (hserves : ServesCollection c args.kind site items upstream)
    (hwhole : parseResourceList tools.number args.kind (wholeCollection args.kind items) =
      .ok whole)
    {w : PageWindow}
    (hpage : tools.page (args.offset.getD 0) (args.limit.getD 200).toUInt64 = .ok w)
    {caches : Caches} (hsite : c.FindsSite upstream args site caches) :
    ∃ t caches', c.FindsSite upstream args site caches' ∧
      (c.listResources tools args).eval upstream caches =
        (.ok (.arr (((itemsOf (tools.projectResourceList args.kind whole)).drop
          w.start.toNat).take w.size.toNat)), t, caches') := by
  obtain ⟨path, hexpand⟩ := hexpand
  obtain ⟨t, caches', hsite⟩ := hsite
  obtain ⟨t', hagain⟩ := siteOr_again hsite
  obtain ⟨response, raw, hanswer, hstatus, hjson, hraw⟩ :=
    hserves path w.start.toNat w.size.toNat hexpand
  obtain ⟨parsed, hparsed, hpaged⟩ := page_of_answered w hwhole hraw
  have hget := eval_get [("offset", toString w.start.toNat), ("limit", toString w.size.toNat)]
    upstream caches' hpermitted hexpand hanswer hstatus hjson
  have heval : ∃ t, (c.listResources tools args).eval upstream caches =
      (.ok (tools.projectResourceList args.kind
        (applyPageIfUpstreamIgnoredIt args.kind.surface w parsed)), t, caches') := by
    have hwindow := congrArg (Except.mapError UnifiError.malformed) hpage
    refine Fallible.exists_eval_bind (Fallible.exists_eval_ofExcept hwindow caches) ?_
    refine Fallible.exists_eval_bind ⟨t, hsite⟩ ?_
    refine Fallible.exists_eval_bind ⟨_, hget⟩ ?_
    exact Fallible.exists_eval_bind (Fallible.exists_eval_ofExcept hparsed caches') ⟨[], rfl⟩
  obtain ⟨t'', heval⟩ := heval
  refine ⟨t'', caches', ⟨t', caches', hagain⟩, ?_⟩
  have hprojected : ∀ l, tools.projectResourceList args.kind (.arr l) =
      .arr (l.map (tools.projectResource args.kind)) := projectResourceList_arr hmany args.kind
  rw [heval, hpaged, hprojected, List.map_take, List.map_drop, parseResourceList_eq_arr hwhole,
    hprojected]
  rfl

/-- **Paging loses nothing.**  Where a controller holds a collection that parses, the pages
of a listing, put together up to the first one that is short, are the parsed and projected
collection. -/
theorem listResources_pages (hmany : ∀ allow items,
      tools.projectMany allow (.arr items) = .arr (items.map (tools.project allow)))
    (hpermitted : ensureSurfacePermitted c.controller args.kind.surface = .ok ())
    (hexpand : ∃ path, c.expandPath args.kind.pathTemplate [("site", site)] = .ok path)
    (hserves : ServesCollection c args.kind site items upstream)
    (hwhole : parseResourceList tools.number args.kind (wholeCollection args.kind items) =
      .ok whole)
    (hgrants : GrantsWalk tools.page args.limit
      (itemsOf (tools.projectResourceList args.kind whole)).length)
    {caches : Caches} (hsite : c.FindsSite upstream args site caches) {pages : Nat}
    (hpages : (itemsOf (tools.projectResourceList args.kind whole)).length <
      pages * pageSize args.limit) :
    readPages (c.pageAt tools upstream args) (pageSize args.limit) pages 0 caches =
      some (.ok (itemsOf (tools.projectResourceList args.kind whole))) := by
  have hread : readPages (c.pageAt tools upstream args) (pageSize args.limit) pages
      (0 * pageSize args.limit) caches = _ :=
    readPages_windows (I := c.FindsSite upstream args site) ?_
      (by rw [Nat.zero_mul]; exact Nat.zero_le _) (by rwa [Nat.zero_add]) hsite
  · rwa [Nat.zero_mul, List.drop_zero] at hread
  · intro n caches hsite hn
    obtain ⟨w, hw, hstart, hsize⟩ := hgrants.window n hn
    obtain ⟨t, caches', hsite', heval⟩ := eval_listResources
      { args with offset := some (UInt64.ofNat (n * pageSize args.limit)) }
      hmany hpermitted hexpand hserves hwhole hw hsite
    refine ⟨caches', hsite', ?_⟩
    rw [pageAt, heval, ← hstart, ← hsize]
    rfl

end UnifiClient

/-! ## Two reservations -/

/-- What the controller knows of a client. -/
def knownClient (id : String) (reserved : Bool) : Json :=
  .obj [("_id", .str id), ("mac", .str id), ("use_fixedip", .bool reserved)]

/-- A controller that knows three clients, two of them with a reservation. -/
def reservationsUpstream : Upstream := fun _ =>
  .ok ⟨200, "", .ok (.obj [("data", .arr
    [knownClient "a" true, knownClient "b" false, knownClient "c" true])])⟩

/-- A reservation as it is listed. -/
def listedReservation (id : String) : Json := .obj [("_id", .str id), ("mac", .str id)]

theorem servesCollection_reservations :
    ServesCollection guestClient .dhcpReservation "default"
      [knownClient "a" true, knownClient "b" false, knownClient "c" true]
      reservationsUpstream :=
  fun _ _ _ _ => ⟨_, _, rfl, by decide, rfl, rfl⟩

theorem plain_grantsWalk : GrantsWalk Toolkit.plain.page (some 1) 2 := by
  refine ⟨by decide, fun pages hpages => ?_⟩
  have hle : pages ≤ 2 := by simpa [pageSize] using hpages
  have hcases : pages = 0 ∨ pages = 1 ∨ pages = 2 := by omega
  rcases hcases with rfl | rfl | rfl
  · exact ⟨⟨0, 1⟩, rfl, rfl, rfl⟩
  · exact ⟨⟨1, 1⟩, rfl, rfl, rfl⟩
  · exact ⟨⟨2, 1⟩, rfl, rfl, rfl⟩

/-- Read one by one, the third page is empty and the two reservations have been seen. -/
theorem listResources_pages_reservations :
    readPages (guestClient.pageAt .plain reservationsUpstream
        ⟨"main", .dhcpReservation, none, some 1, none⟩) 1 3 0 ⟨.ok none, .ok none⟩ =
      some (.ok [listedReservation "a", listedReservation "c"]) := by
  have hmany : ∀ allow items, Toolkit.plain.projectMany allow (.arr items) =
      .arr (items.map (Toolkit.plain.project allow)) := fun _ _ => rfl
  have hwhole : parseResourceList Toolkit.plain.number .dhcpReservation (wholeCollection
      .dhcpReservation [knownClient "a" true, knownClient "b" false, knownClient "c" true]) =
        .ok (.arr [listedReservation "a", listedReservation "c"]) := rfl
  have hsite : guestClient.FindsSite reservationsUpstream
      ⟨"main", .dhcpReservation, none, some 1, none⟩ "default" ⟨.ok none, .ok none⟩ :=
    ⟨[], _, rfl⟩
  have hpages : (itemsOf (Toolkit.plain.projectResourceList .dhcpReservation
      (.arr [listedReservation "a", listedReservation "c"]))).length < 3 * pageSize (some 1) := by
    decide
  exact UnifiClient.listResources_pages hmany rfl ⟨_, rfl⟩ servesCollection_reservations hwhole
    plain_grantsWalk hsite hpages

end UnifiMcp

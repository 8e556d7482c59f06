import UnifiMcp.Client.Upstream
import UnifiMcp.Collections.Mapped
import UnifiMcp.Tools.Workflow

/-!
# What a troubleshoot report leaves out

A troubleshoot report fetches four legs and then looks for the policies that apply to a
station.  Both halves keep a list of what they had to leave out: a leg that was refused, a gap
in the correlation.  The report shows the first list in place of the second, so it names every
gap only when there is none: `reportsGaps_iff` says what the legs have to answer for that.
-/

namespace UnifiMcp

open Interaction Collections

/-! ## The four legs -/

/-- What became of the legs of a troubleshoot report. -/
structure TroubleshootLegs where
  stations : LegResult Json
  devices : LegResult Json
  policies : LegResult Json
  zones : LegResult Json

namespace TroubleshootLegs

/-- The legs that were refused, with the reasons. -/
def omitted (legs : TroubleshootLegs) : List String :=
  omissions [legs.stations.omission, legs.devices.omission, legs.policies.omission,
    legs.zones.omission]

/-- The report built from the answers of the legs. -/
def build (legs : TroubleshootLegs) (r : Redactor) (mac site : String) :
    Except UnifiError ClientTroubleshootReport :=
  buildClientTroubleshoot r mac site (legs.stations.getD .null) (legs.devices.getD .null)
    (legs.policies.getD .null) (legs.zones.getD .null)

/-- The report that is shown: it is refused if every leg was, and names the legs left out. -/
def shown (legs : TroubleshootLegs) (r : Redactor) (mac site : String) :
    Except UnifiError ClientTroubleshootReport :=
  if legs.omitted.length = 4 then .error allRefused
  else do
    let report ← legs.build r mac site
    pure { report with partiality := !legs.omitted.isEmpty, omitted := legs.omitted }

end TroubleshootLegs

namespace UnifiClient

variable (c : UnifiClient)

/-- Fetch the legs of a troubleshoot report. -/
def troubleshootLegs (siteUuid siteName : String) : ClientM TroubleshootLegs := do
  let stations ← leg "stations" privateApi
    (c.getAt .privateV1 "/proxy/network/api/s/{site}/stat/sta" siteName [])
  let devices ← leg "devices" integrationApi
    (c.getAt .supported ResourceKind.device.pathTemplate siteUuid [])
  let policies ← leg "policies" privateApi
    (c.getAt .privateV2 ResourceKind.firewallPolicy.pathTemplate siteName [])
  let zones ← leg "zones" privateApi
    (c.getAt .privateV2 ResourceKind.firewallZone.pathTemplate siteName [])
  pure ⟨stations, devices, policies, zones⟩

/-- The legs that a troubleshoot report gathers when its questions are answered as `t` records. -/
def Gathers (args : ClientTroubleshootArgs) (t : List (Event ClientSig))
    (legs : TroubleshootLegs) : Prop :=
  ∃ t₁ t₂ siteUuid, t = t₁ ++ t₂ ∧ (c.defaultSiteFor .supported).Gives t₁ (.ok siteUuid) ∧
    (c.troubleshootLegs siteUuid (args.site.getD c.defaultSite)).Gives t₂ (.ok legs)

/-- A report is its legs and what is shown of them. -/
theorem clientTroubleshootAt_eq (tools : Toolkit) (siteUuid siteName : String)
    (args : ClientTroubleshootArgs) :
    c.clientTroubleshootAt tools siteUuid siteName args =
      c.troubleshootLegs siteUuid siteName >>= fun legs =>
        Fallible.ofExcept (legs.shown tools.toRedactor args.mac (args.site.getD siteName)) := by
  unfold clientTroubleshootAt troubleshootLegs
  simp only [bind_assoc, pure_bind]
  refine bind_congr fun stations => bind_congr fun devices => bind_congr fun policies =>
    bind_congr fun zones => ?_
  unfold TroubleshootLegs.shown TroubleshootLegs.omitted TroubleshootLegs.build
  dsimp only
  split_ifs
  · rfl
  · cases buildClientTroubleshoot tools.toRedactor args.mac (args.site.getD siteName)
      (stations.getD .null) (devices.getD .null) (policies.getD .null) (zones.getD .null) <;> rfl

/-- A run ends with a report when the legs it gathers show it. -/
theorem gives_clientTroubleshoot {c : UnifiClient} {tools : Toolkit} {args : ClientTroubleshootArgs}
    {t : List (Event ClientSig)} {report : ClientTroubleshootReport} :
    (c.clientTroubleshoot tools args).Gives t (.ok report) ↔
      ∃ legs, c.Gathers args t legs ∧ legs.shown tools.toRedactor args.mac
        (args.site.getD c.defaultSite) = .ok report := by
  have hname : args.site.getD (args.site.getD c.defaultSite) = args.site.getD c.defaultSite := by
    cases args.site <;> rfl
  rw [← hname]
  unfold clientTroubleshoot
  simp only [clientTroubleshootAt_eq, Fallible.gives_bind_ok, Fallible.gives_ofExcept]
  constructor
  · rintro ⟨t₁, _, siteUuid, rfl, hsite, t₂, _, legs, rfl, hlegs, rfl, hshown⟩
    rw [List.append_nil]
    exact ⟨legs, ⟨t₁, t₂, siteUuid, rfl, hsite, hlegs⟩, hshown⟩
  · rintro ⟨legs, ⟨t₁, t₂, siteUuid, rfl, hsite, hlegs⟩, hshown⟩
    exact ⟨t₁, t₂, siteUuid, rfl, hsite, t₂, [], legs, (List.append_nil t₂).symm, hlegs, rfl,
      hshown⟩

end UnifiClient

/-! ## What is said of a leg and of a gap -/

/-- The reason a leg was left out begins with its name. -/
theorem omission_of_gives {α : Type} {name disabled : String} {fetch : ClientM α}
    {t : List (Event ClientSig)} {l : LegResult α}
    (h : (leg name disabled fetch).Gives t (.ok l)) :
    ∀ reason ∈ l.omission, reason = s!"{name}: controller has {disabled} disabled" ∨
      reason = s!"{name}: token lacks required scope" := by
  unfold leg at h
  obtain ⟨t₁, t₂, r, -, -, hl⟩ := Fallible.gives_attempt_bind.1 h
  split at hl
  · obtain ⟨-, hl⟩ := Fallible.gives_pure.1 hl
    cases hl
    exact nofun
  · obtain ⟨-, hl⟩ := Fallible.gives_pure.1 hl
    cases hl
    rintro reason ⟨⟩
    exact .inl rfl
  · obtain ⟨-, hl⟩ := Fallible.gives_pure.1 hl
    cases hl
    rintro reason ⟨⟩
    exact .inr rfl
  · cases (Fallible.gives_throw.1 hl).2

/-- What may be said of the legs of a troubleshoot report. -/
def legTexts : List String :=
  ["stations: controller has allow_private_api disabled", "stations: token lacks required scope",
    "devices: controller has Integration API disabled", "devices: token lacks required scope",
    "policies: controller has allow_private_api disabled", "policies: token lacks required scope",
    "zones: controller has allow_private_api disabled", "zones: token lacks required scope"]

theorem mem_legTexts {c : UnifiClient} {args : ClientTroubleshootArgs}
    {t : List (Event ClientSig)} {legs : TroubleshootLegs} (h : c.Gathers args t legs) :
    ∀ reason ∈ legs.omitted, reason ∈ legTexts := by
  obtain ⟨-, t, siteUuid, -, -, hlegs⟩ := h
  unfold UnifiClient.troubleshootLegs at hlegs
  obtain ⟨_, _, stations, -, hstations, hlegs⟩ := Fallible.gives_bind_ok.1 hlegs
  obtain ⟨_, _, devices, -, hdevices, hlegs⟩ := Fallible.gives_bind_ok.1 hlegs
  obtain ⟨_, _, policies, -, hpolicies, hlegs⟩ := Fallible.gives_bind_ok.1 hlegs
  obtain ⟨_, _, zones, -, hzones, hlegs⟩ := Fallible.gives_bind_ok.1 hlegs
  obtain ⟨-, hlegs⟩ := Fallible.gives_pure.1 hlegs
  cases hlegs
  intro reason hreason
  unfold TroubleshootLegs.omitted omissions at hreason
  simp only [List.mem_filterMap, List.mem_cons, List.not_mem_nil, or_false, id] at hreason
  obtain ⟨_, hleg | hleg | hleg | hleg, hsome⟩ := hreason
  · rcases omission_of_gives hstations reason (hleg ▸ hsome) with rfl | rfl <;> decide
  · rcases omission_of_gives hdevices reason (hleg ▸ hsome) with rfl | rfl <;> decide
  · rcases omission_of_gives hpolicies reason (hleg ▸ hsome) with rfl | rfl <;> decide
  · rcases omission_of_gives hzones reason (hleg ▸ hsome) with rfl | rfl <;> decide

/-- The applicable policies can be looked for: the station names its network, the zones and the
policies are lists, and the network is in a zone. -/
def Correlates (station : Json) (zones policies : Option (List Json)) : Prop :=
  ∃ networkId, station.getStr? "network_id" = some networkId ∧ policies.isSome ∧
    ∃ zones', zones = some zones' ∧ matchingZoneIds networkId zones' ≠ []

/-- There is no gap exactly when they can be looked for. -/
theorem correlate_gaps_eq_nil (r : Redactor) (station : Json)
    (zones policies : Option (List Json)) :
    (correlate r station zones policies).2 = [] ↔ Correlates station zones policies := by
  unfold correlate Correlates
  cases station.getStr? "network_id" with
  | none => simp
  | some networkId =>
      cases zones with
      | none => simp
      | some zones =>
          cases policies with
          | none => simp
          | some policies => simp

/-- The texts of the gaps. -/
theorem mem_gaps {r : Redactor} {station : Json} {zones policies : Option (List Json)}
    {gap : String} (h : gap ∈ (correlate r station zones policies).2) :
    gap = "station has no network_id for correlation" ∨
      gap = "zones unavailable for correlation" ∨
      gap = "policies unavailable for correlation" ∨
      ∃ networkId : String, gap = s!"network {networkId} not found in any zone" := by
  unfold correlate at h
  cases hnetwork : station.getStr? "network_id" with
  | none =>
      rw [hnetwork] at h
      exact .inl (List.mem_singleton.1 h)
  | some networkId =>
      rw [hnetwork] at h
      cases zones with
      | none =>
          cases policies with
          | none =>
              rcases List.mem_cons.1 h with hzones | hpolicies
              · exact .inr (.inl hzones)
              · exact .inr (.inr (.inl (List.mem_singleton.1 hpolicies)))
          | some policies => exact .inr (.inl (List.mem_singleton.1 h))
      | some zones =>
          cases policies with
          | none => exact .inr (.inr (.inl (List.mem_singleton.1 h)))
          | some policies =>
              dsimp only at h
              split_ifs at h
              · exact .inr (.inr (.inr ⟨networkId, List.mem_singleton.1 h⟩))
              · cases h

/-- A gap is said in words that are not used of a leg. -/
theorem not_mem_legTexts_of_gap {r : Redactor} {station : Json}
    {zones policies : Option (List Json)} :
    ∀ gap ∈ (correlate r station zones policies).2, gap ∉ legTexts := by
  intro gap hgap
  rcases mem_gaps hgap with rfl | rfl | rfl | ⟨networkId, rfl⟩
  · decide
  · decide
  · decide
  · -- No text about a leg begins with this letter.
    have hhead : ∀ text ∈ legTexts, text.toList.head? ≠ some 'n' := by decide
    intro hmem
    refine hhead _ hmem ?_
    rw [String.toList_append, String.toList_append, List.append_assoc]
    rfl

/-! ## Which reports name every gap -/

/-- The report names every leg that was refused and every gap that was found while it was
built, and says that it is partial exactly when it names something. -/
structure ReportsGaps (legs : TroubleshootLegs) (r : Redactor) (mac site : String)
    (report : ClientTroubleshootReport) : Prop where
  refused : ∀ reason ∈ legs.omitted, reason ∈ report.omitted
  gaps : ∃ built, legs.build r mac site = .ok built ∧ ∀ gap ∈ built.omitted, gap ∈ report.omitted
  partiality : report.partiality = true ↔ report.omitted ≠ []

/-- The station of a MAC address, in the answer of the leg. -/
def TroubleshootLegs.station? (legs : TroubleshootLegs) (mac : String) : Option Json :=
  match unwrapEnvelopedData (legs.stations.getD .null) with
  | .ok stations => stations.find? fun s => s.getStr? "mac" = some mac
  | .error _ => none

/-- The legs answer enough to look for the policies of the station. -/
def TroubleshootLegs.Correlate (legs : TroubleshootLegs) (mac : String) : Prop :=
  ∃ station, legs.station? mac = some station ∧
    Correlates station (bareOrEnveloped (legs.zones.getD .null))
      (bareOrEnveloped (legs.policies.getD .null))

/-- What a report that was built leaves out are the gaps of its station. -/
theorem omitted_of_build {legs : TroubleshootLegs} {r : Redactor} {mac site : String}
    {built : ClientTroubleshootReport} (h : legs.build r mac site = .ok built) :
    ∃ station, legs.station? mac = some station ∧
      built.omitted = (correlate r station (bareOrEnveloped (legs.zones.getD .null))
        (bareOrEnveloped (legs.policies.getD .null))).2 := by
  unfold TroubleshootLegs.build buildClientTroubleshoot at h
  obtain ⟨stations, hstations, h⟩ := bind_eq_ok.1 h
  obtain ⟨devices, -, h⟩ := bind_eq_ok.1 h
  cases hstation : stations.find? fun s => s.getStr? "mac" = some mac with
  | none =>
      rw [hstation] at h
      cases h
  | some station =>
      rw [hstation] at h
      refine ⟨station, ?_, ?_⟩
      · unfold TroubleshootLegs.station?
        rw [hstations]
        exact hstation
      · cases h
        rfl

/-- Legs that show a report have it name all it could not say when there was no gap. -/
theorem TroubleshootLegs.reportsGaps_iff_of_shown {legs : TroubleshootLegs} {c : UnifiClient}
    {args : ClientTroubleshootArgs} {t : List (Event ClientSig)} {r : Redactor} {site : String}
    {report : ClientTroubleshootReport} (hgathers : c.Gathers args t legs)
    (hshown : legs.shown r args.mac site = .ok report) :
    ReportsGaps legs r args.mac site report ↔ legs.Correlate args.mac := by
  unfold TroubleshootLegs.shown at hshown
  split_ifs at hshown
  obtain ⟨built, hbuilt, hreport⟩ := bind_eq_ok.1 hshown
  cases hreport
  obtain ⟨station, hstation, homitted⟩ := omitted_of_build hbuilt
  have hcorrelate : legs.Correlate args.mac ↔ built.omitted = [] := by
    rw [homitted, correlate_gaps_eq_nil]
    unfold TroubleshootLegs.Correlate
    simp [hstation]
  rw [hcorrelate]
  constructor
  · rintro ⟨-, ⟨built', hbuilt', hgaps⟩, -⟩
    obtain rfl : built = built' := Except.ok.inj (hbuilt.symm.trans hbuilt')
    rw [List.eq_nil_iff_forall_not_mem]
    intro gap hgap
    exact not_mem_legTexts_of_gap gap (homitted ▸ hgap)
      (mem_legTexts hgathers gap (hgaps gap hgap))
  · intro hnone
    refine ⟨fun _ => id, ⟨built, hbuilt, hnone ▸ nofun⟩, ?_⟩
    simp

/-- **When a troubleshoot report names all it could not say.**  It does exactly when there was
no gap: the station that was found names its network, the policies and the zones were answered
with lists, and the network is in one of the zones. -/
theorem reportsGaps_iff {c : UnifiClient} {tools : Toolkit} {args : ClientTroubleshootArgs}
    {t : List (Event ClientSig)} {report : ClientTroubleshootReport}
    (h : (c.clientTroubleshoot tools args).Gives t (.ok report)) :
    ∃ legs, c.Gathers args t legs ∧
      (ReportsGaps legs tools.toRedactor args.mac (args.site.getD c.defaultSite) report ↔
        legs.Correlate args.mac) := by
  obtain ⟨legs, hgathers, hshown⟩ := UnifiClient.gives_clientTroubleshoot.1 h
  exact ⟨legs, hgathers, legs.reportsGaps_iff_of_shown hgathers hshown⟩

/-! ## A station whose network is in a zone, and one whose network is in none -/

/-- A client that may use the private surfaces. -/
def deskClient : UnifiClient where
  controller :=
    ⟨"https://unifi.example", "default", some "UNIFI_API_KEY", none, none, true, false⟩
  expandPath template _ := .ok template

/-- The station, on the network `n1`. -/
def deskStation : Json := .obj [("mac", .str "aa"), ("network_id", .str "n1")]

/-- What the four legs are answered, with these zones. -/
def deskLegs (zones : List Json) : TroubleshootLegs where
  stations := .ok (.obj [("data", .arr [deskStation])])
  devices := .ok (.obj [("data", .arr [])])
  policies := .ok (.arr [])
  zones := .ok (.arr zones)

/-- A controller that answers so. -/
def deskUpstream (zones : List Json) : Upstream := fun request =>
  .ok ⟨200, "", .ok (
    if request.template = ResourceKind.firewallZone.pathTemplate then .arr zones
    else if request.template = ResourceKind.firewallPolicy.pathTemplate then .arr []
    else if request.template = ResourceKind.device.pathTemplate then .obj [("data", .arr [])]
    else if request.template = UnifiClient.sitesPath then
      .obj [("data", .arr [.obj [("id", .str "u1"), ("internalReference", .str "default")]])]
    else .obj [("data", .arr [deskStation])])⟩

/-- Troubleshoot the station. -/
def deskArgs : ClientTroubleshootArgs := ⟨"main", "aa", none⟩

/-- What is shown of the station: nothing is left out, and nothing applies to it. -/
def deskReport : ClientTroubleshootReport := ⟨"aa", some deskStation, none, [], false, []⟩

theorem gathers_deskLegs (zones : List Json) :
    ∃ t, deskClient.Gathers deskArgs t (deskLegs zones) := by
  have hsite : ∃ t, (deskClient.defaultSiteFor .supported).eval (deskUpstream zones)
      ⟨.ok none, .ok none⟩ = (.ok "u1", t, ⟨.ok (some "u1"), .ok none⟩) := ⟨_, rfl⟩
  have hlegs : ∃ t, (deskClient.troubleshootLegs "u1" "default").eval (deskUpstream zones)
      ⟨.ok (some "u1"), .ok none⟩ = (.ok (deskLegs zones), t, ⟨.ok (some "u1"), .ok none⟩) :=
    ⟨_, rfl⟩
  obtain ⟨t₁, hsite⟩ := hsite
  obtain ⟨t₂, hlegs⟩ := hlegs
  exact ⟨t₁ ++ t₂, t₁, t₂, "u1", rfl, (Fallible.gives_of_eval hsite).1,
    (Fallible.gives_of_eval hlegs).1⟩

theorem shown_deskLegs (zones : List Json) :
    (deskLegs zones).shown Toolkit.plain.toRedactor "aa" "default" = .ok deskReport := rfl

/-- The network is in a zone, so there is nothing to say. -/
theorem reportsGaps_iff_desk :
    ∃ t, (deskClient.clientTroubleshoot .plain deskArgs).Gives t (.ok deskReport) ∧
      ∃ legs, deskClient.Gathers deskArgs t legs ∧
        (ReportsGaps legs Toolkit.plain.toRedactor "aa" "default" deskReport ↔
          legs.Correlate "aa") := by
  obtain ⟨t, hgathers⟩ := gathers_deskLegs
    [.obj [("_id", .str "z1"), ("network_ids", .arr [.str "n1"])]]
  have hgives : (deskClient.clientTroubleshoot .plain deskArgs).Gives t (.ok deskReport) :=
    UnifiClient.gives_clientTroubleshoot.2 ⟨_, hgathers, shown_deskLegs _⟩
  exact ⟨t, hgives, reportsGaps_iff hgives⟩

/-- The network is in no zone.  That is found, and the report is shown as complete. -/
theorem not_reportsGaps_desk :
    ∃ t, (deskClient.clientTroubleshoot .plain deskArgs).Gives t (.ok deskReport) ∧
      deskClient.Gathers deskArgs t (deskLegs []) ∧
      ¬ ReportsGaps (deskLegs []) Toolkit.plain.toRedactor "aa" "default" deskReport := by
  obtain ⟨t, hgathers⟩ := gathers_deskLegs []
  refine ⟨t, UnifiClient.gives_clientTroubleshoot.2 ⟨_, hgathers, shown_deskLegs _⟩, hgathers, ?_⟩
  rintro ⟨-, ⟨built, hbuilt, hgaps⟩, -⟩
  have hgap : ∃ built', (deskLegs []).build Toolkit.plain.toRedactor "aa" "default" = .ok built' ∧
      built'.omitted = ["network n1 not found in any zone"] := ⟨_, rfl, rfl⟩
  obtain ⟨built', hbuilt', homitted⟩ := hgap
  obtain rfl : built = built' := Except.ok.inj (hbuilt.symm.trans hbuilt')
  exact absurd (hgaps _ (homitted ▸ List.mem_singleton_self _)) List.not_mem_nil

end UnifiMcp

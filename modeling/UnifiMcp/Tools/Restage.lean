import UnifiMcp.Changeset.WritableFields
import UnifiMcp.Client.Upstream
import UnifiMcp.Collections.Mapped
import UnifiMcp.Tools.Resources

/-!
# Reading a policy to write it back

A firewall policy is shown with every field the controller sent, so that it can be edited and
staged again.  Staging allows the fields of a fixed list only.  `restages_iff` says which
policies come through: those whose fields, but for `_id` and a `hits` without a value, are all
on the list.  Only keys matter for this, and each step is followed by its keys: a policy is
written with the keys it was read with (`mem_keys_toJson`), the redaction keeps them, and an
edit changes values of fields that may be written (`mem_keys_restagedBody`).
-/

namespace UnifiMcp

open Interaction Collections

/-! ## The keys of a record -/

/-- A record has the keys of its fields that have a value. -/
theorem mem_keys_record (fields : List (String × Option Json)) :
    ∃ entries, record fields = .obj entries ∧
      ∀ key, key ∈ keys entries ↔ ∃ v, (key, some v) ∈ fields := by
  have hfold : ∀ (fields : List (String × Option Json)) (entries : List (String × Json)) key,
      key ∈ keys (fields.foldl (fun entries e =>
        e.2.elim entries fun v => insertEntry e.1 v entries) entries) ↔
        key ∈ keys entries ∨ ∃ v, (key, some v) ∈ fields := by
    intro fields
    induction fields with
    | nil => simp
    | cons field rest ih =>
        intro entries key
        obtain ⟨name, value⟩ := field
        rw [List.foldl_cons, ih]
        cases value with
        | none => simp
        | some v =>
            simp only [Option.elim_some, mem_keys_insertEntry, List.mem_cons, Prod.mk.injEq,
              Option.some.injEq, exists_or, exists_eq_right]
            tauto
  have hrecord : record fields = .obj (fields.foldl (fun entries e =>
      e.2.elim entries fun v => insertEntry e.1 v entries) []) := by
    unfold record
    congr 2
    funext entries e
    obtain ⟨key, value⟩ := e
    cases value <;> rfl
  exact ⟨_, hrecord, fun key => (hfold fields [] key).trans (or_iff_right List.not_mem_nil)⟩

/-- An optional field has no value when it is left out or `null`. -/
theorem optionalField_isNone {α : Type} {fields : List (String × Json)} {name : String}
    {decode : Json → Except DecodeError α} {value : Option α}
    (h : optionalField fields name decode = .ok value) :
    value = none ↔ (findEntry name fields).getD .null = .null := by
  unfold optionalField at h
  cases hfind : findEntry name fields with
  | none =>
      rw [hfind] at h
      cases h
      simp
  | some v =>
      rw [hfind] at h
      cases v with
      | null =>
          cases h
          simp
      | bool _ | num _ | str _ | arr _ | obj _ =>
          obtain ⟨a, -, rfl⟩ := map_eq_ok.1 h
          simp

/-! ## The keys of a policy -/

namespace FirewallPolicy

/-- The names of the fields a policy has of its own. -/
def named : List String := checks.map Prod.fst

/-- What becomes of the fields that may be left out. -/
theorem ofJson_eq_ok {entries : List (String × Json)} {p : FirewallPolicy}
    (h : ofJson (.obj entries) = .ok p) :
    optionalField entries "hits" decodeU64 = .ok p.hits ∧
      p.rest = entries.filter fun entry => !named.contains entry.1 := by
  unfold ofJson at h
  simp only [bind_eq_ok] at h
  obtain ⟨fields, hfields, _, -, _, -, _, -, _, -, _, -, _, -, _, -, _, -, _, -, _, -, _, -, hits,
    hhits, hp⟩ := h
  obtain ⟨-, -, hpure⟩ := bind_eq_ok.1 hfields
  cases hpure
  cases hp
  exact ⟨hhits, rfl⟩

/-- A policy is written with its own fields, a `hits` that has a value, and what was kept. -/
theorem mem_keys_toJson {entries : List (String × Json)} {p : FirewallPolicy}
    (h : ofJson (.obj entries) = .ok p) :
    ∃ shown, p.toJson = .obj shown ∧ ∀ key, key ∈ keys shown ↔
      key ∈ ["_id", "name", "action", "enabled", "index", "predefined"] ∨
        (key = "hits" ∧ (findEntry "hits" entries).getD .null ≠ .null) ∨
        (key ∈ keys entries ∧ key ∉ named) := by
  obtain ⟨hhits, hrest⟩ := ofJson_eq_ok h
  obtain ⟨shown, hshown, hkeys⟩ := mem_keys_record
    ([("_id", some (.str p.id)), ("name", some (.str p.name)), ("action", some (.str p.action)),
      ("enabled", some (.bool p.enabled)), ("index", some (.num (.posInt p.index.toUInt64))),
      ("predefined", some (.bool p.predefined)),
      ("hits", p.hits.map fun hits => .num (.posInt hits))] ++
        p.rest.map fun e => (e.1, some e.2))
  refine ⟨shown, hshown, fun key => ?_⟩
  have hkept : (∃ v, (key, some v) ∈ p.rest.map fun e => (e.1, some e.2)) ↔
      key ∈ keys entries ∧ key ∉ named := by
    have hfilter : key ∈ keys p.rest ↔ key ∈ keys entries ∧ key ∉ named := by
      rw [hrest, keys_filter fun key => !named.contains key]
      simp
    rw [← hfilter, mem_keys]
    simp
  have hhit : (∃ v, (some v : Option Json) = p.hits.map fun hits => .num (.posInt hits)) ↔
      (findEntry "hits" entries).getD .null ≠ .null := by
    rw [ne_eq, ← optionalField_isNone hhits]
    cases p.hits <;> simp
  rw [hkeys, ← hkept, ← hhit]
  simp only [List.mem_append, List.mem_cons, Prod.mk.injEq, Option.some.injEq, List.not_mem_nil,
    or_false, exists_or, exists_and_left, exists_eq, and_true, or_assoc]

end FirewallPolicy

/-! ## What is handed back -/

/-- The fields a staged policy may set. -/
def policyFields : List String := (writableFields .firewallPolicy).getD []

/-- The body an author hands back: what was shown without its `_id`, with some values changed. -/
def restagedBody (shown changes : List (String × Json)) : List (String × Json) :=
  changes.foldl (fun fields (key, v) => insertEntry key v fields)
    (shown.filter fun e => e.1 ≠ "_id")

theorem mem_keys_restagedBody {shown changes : List (String × Json)} {key : String} :
    key ∈ keys (restagedBody shown changes) ↔
      (key ∈ keys shown ∧ key ≠ "_id") ∨ key ∈ keys changes := by
  have hfold : ∀ (changes fields : List (String × Json)),
      key ∈ keys (changes.foldl (fun fields (key, v) => insertEntry key v fields) fields) ↔
        key ∈ keys fields ∨ key ∈ keys changes := by
    intro changes
    induction changes with
    | nil => exact fun fields => (or_iff_left List.not_mem_nil).symm
    | cons e rest ih =>
        intro fields
        rw [List.foldl_cons, ih, mem_keys_insertEntry]
        change (key = e.1 ∨ key ∈ keys fields) ∨ key ∈ keys rest ↔
          key ∈ keys fields ∨ key ∈ e.1 :: keys rest
        rw [List.mem_cons]
        tauto
  unfold restagedBody
  rw [hfold, keys_filter fun key => decide (key ≠ "_id")]
  simp

/-- The check of a policy update looks at the keys of its body. -/
theorem checkWritableFields_policy (number : Number → String) (id : String)
    (body : List (String × Json)) :
    checkWritableFields number [.update ResourceKind.firewallPolicy.name id (.obj body)] =
        .ok () ↔ ∀ key ∈ keys body, key ∈ policyFields := by
  have hcheck : checkWritableFields number
      [.update ResourceKind.firewallPolicy.name id (.obj body)] =
      checkFields (StagedMutation.update ResourceKind.firewallPolicy.name id (.obj body)).preview
        ResourceKind.firewallPolicy.name policyFields body >>= fun _ => .ok () := rfl
  rw [hcheck, bind_eq_ok]
  simp only [and_true, keys, List.forall_mem_map]
  constructor
  · rintro ⟨_, h⟩
    exact checkFields_eq_ok.1 h
  · exact fun h => ⟨(), checkFields_eq_ok.2 h⟩

/-- The redaction replaces values and keeps every field of an object. -/
def Redactor.KeepsKeys (r : Redactor) : Prop :=
  ∀ fields, ∃ fields', r.redactJsonValue (.obj fields) = .obj fields' ∧ keys fields' = keys fields

/-! ## Getting a policy -/

open UnifiClient

section Get

variable {c : UnifiClient} {tools : Toolkit} {args : GetResourceArgs} {upstream : Upstream}
  {caches : Caches} {raw : Json} {entries : List (String × Json)} {p : FirewallPolicy}

/-- The request for the policy can be made, and is answered with `raw`. -/
def AnswersPolicy (c : UnifiClient) (args : GetResourceArgs) (upstream : Upstream) (raw : Json) :
    Prop :=
  ensureSurfacePermitted c.controller .privateV2 = .ok () ∧
    ∃ path response,
      c.expandPath ResourceKind.firewallPolicy.singleResourceTemplate
          [("site", args.site.getD c.controller.site), ("id", args.id)] = .ok path ∧
        upstream (c.requestOf .get ResourceKind.firewallPolicy.singleResourceTemplate
          [("site", args.site.getD c.controller.site), ("id", args.id)] [] none path) =
            .ok response ∧ response.status < 300 ∧ response.json = .ok raw

/-- The answer is the policy, bare or alone in an array. -/
def HoldsPolicy (raw : Json) (entries : List (String × Json)) : Prop :=
  raw = .obj entries ∨ raw = .arr [.obj entries]

theorem eval_getResource_policy (hkind : args.kind = .firewallPolicy)
    (hanswer : AnswersPolicy c args upstream raw) :
    ((c.getResource tools args).eval upstream caches).1 =
      (parseSingleResource tools.number .firewallPolicy raw).map
        (tools.projectResourceList .firewallPolicy) := by
  obtain ⟨hpermitted, path, response, hexpand, hsent, hstatus, hjson⟩ := hanswer
  have hsite : (c.siteOr args.site .privateV2).eval upstream caches =
      (.ok (args.site.getD c.controller.site), [], caches) := by
    cases args.site <;> rfl
  have hget := eval_get [] upstream caches hpermitted hexpand hsent hstatus hjson
  have hrun : ∃ t, (c.getResource tools args).eval upstream caches =
      ((parseSingleResource tools.number .firewallPolicy raw).map
        (tools.projectResourceList .firewallPolicy), t, caches) := by
    unfold UnifiClient.getResource
    rw [hkind]
    refine Fallible.exists_eval_bind ⟨_, hsite⟩ ?_
    refine Fallible.exists_eval_bind ⟨_, hget⟩ ?_
    cases parseSingleResource tools.number .firewallPolicy raw with
    | ok parsed => exact ⟨[], rfl⟩
    | error e => exact ⟨[], rfl⟩
  obtain ⟨t, hrun⟩ := hrun
  exact congrArg Prod.fst hrun

theorem parseResourceList_policy (hparse : FirewallPolicy.ofJson (.obj entries) = .ok p)
    (number : Number → String) :
    parseResourceList number .firewallPolicy (.arr [.obj entries]) = .ok (.arr [p.toJson]) := by
  have hpolicies : parseFirewallPolicies (.arr [.obj entries]) = .ok [p] := by
    change ([Json.obj entries].mapM fun item => (FirewallPolicy.ofJson item).mapError _) =
      Except.ok [p]
    rw [List.mapM_cons, hparse]
    rfl
  exact congrArg (rendered FirewallPolicy.toJson) hpolicies

/-- A policy that is sent alone in an array is read. -/
theorem parseSingleResource_array (hparse : FirewallPolicy.ofJson (.obj entries) = .ok p)
    (number : Number → String) :
    parseSingleResource number .firewallPolicy (.arr [.obj entries]) = .ok p.toJson := by
  have hlist := parseResourceList_policy hparse number
  unfold parseSingleResource
  have hnormal : normalizeSingle .firewallPolicy (.arr [.obj entries]) = .arr [.obj entries] := rfl
  rw [hnormal, hlist]
  rfl

/-- One that is sent bare is read unless it has a field `data`. -/
theorem parseSingleResource_bare (hparse : FirewallPolicy.ofJson (.obj entries) = .ok p)
    (number : Number → String) (hdata : "data" ∉ keys entries) :
    parseSingleResource number .firewallPolicy (.obj entries) = .ok p.toJson := by
  have hnormal : normalizeSingle .firewallPolicy (.obj entries) = .arr [.obj entries] := by
    unfold normalizeSingle
    rw [Json.get?_obj, findEntry_eq_none.2 hdata]
    rfl
  unfold parseSingleResource
  rw [hnormal, parseResourceList_policy hparse number]
  rfl

/-- With that field it is taken for an envelope, and policies do not come in one. -/
theorem parseSingleResource_data (number : Number → String) (hdata : "data" ∈ keys entries) :
    ∃ e, parseSingleResource number .firewallPolicy (.obj entries) = .error e := by
  have hnormal : ∃ fields, normalizeSingle .firewallPolicy (.obj entries) = .obj fields := by
    cases hfind : findEntry "data" entries with
    | none => exact absurd hdata (findEntry_eq_none.1 hfind)
    | some v =>
        unfold normalizeSingle
        rw [Json.get?_obj, hfind]
        cases v with
        | arr items => exact ⟨entries, rfl⟩
        | null | bool _ | num _ | str _ | obj _ => exact ⟨_, rfl⟩
  obtain ⟨fields, hnormal⟩ := hnormal
  unfold parseSingleResource
  rw [hnormal]
  exact ⟨_, rfl⟩

end Get

/-! ## Which policies come through -/

/-- The policy comes through: what is shown of it, without its `_id` and with the values of
any fields changed that may be written, passes as the body of an update. -/
def Restages (c : UnifiClient) (tools : Toolkit) (args : GetResourceArgs) (upstream : Upstream)
    (caches : Caches) : Prop :=
  ∃ shown, ((c.getResource tools args).eval upstream caches).1 = .ok (.obj shown) ∧
    ∀ number id changes, (∀ key ∈ keys changes, key ∈ policyFields) →
      checkWritableFields number [.update ResourceKind.firewallPolicy.name id
        (.obj (restagedBody shown changes))] = .ok ()

/-- The fields of the policy may be written, but for `_id` and a `hits` without a value. -/
structure Restageable (entries : List (String × Json)) : Prop where
  fields : ∀ key ∈ keys entries, key ∈ "_id" :: "hits" :: policyFields
  hits : (findEntry "hits" entries).getD .null = .null

section Restage

variable {c : UnifiClient} {tools : Toolkit} {args : GetResourceArgs} {upstream : Upstream}
  {caches : Caches} {raw : Json} {entries : List (String × Json)} {p : FirewallPolicy}

/-- What is shown of such a policy, but for its `_id`, may be written. -/
theorem restageable_iff (hparse : FirewallPolicy.ofJson (.obj entries) = .ok p)
    {shown : List (String × Json)} (hshown : p.toJson = .obj shown) :
    (∀ key ∈ keys shown, key ≠ "_id" → key ∈ policyFields) ↔ Restageable entries := by
  obtain ⟨shown', hshown', hkeys⟩ := FirewallPolicy.mem_keys_toJson hparse
  obtain rfl : shown = shown' := Json.obj.inj (hshown.symm.trans hshown')
  constructor
  · intro h
    refine ⟨fun key hkey => ?_, ?_⟩
    · by_cases hnamed : key ∈ FirewallPolicy.named
      · exact List.forall_iff_forall_mem.1 (by decide) key hnamed
      · have hwritable := h key ((hkeys key).2 (.inr (.inr ⟨hkey, hnamed⟩)))
        by_cases hid : key = "_id"
        · exact hid ▸ List.mem_cons_self
        · exact List.mem_cons_of_mem _ (List.mem_cons_of_mem _ (hwritable hid))
    · by_contra hhits
      exact absurd (h "hits" ((hkeys "hits").2 (.inr (.inl ⟨rfl, hhits⟩))) (by decide)) (by decide)
  · intro h key hkey hid
    rcases (hkeys key).1 hkey with hown | ⟨-, hhits⟩ | ⟨hkept, hnamed⟩
    · have hwritable : ∀ key ∈ ["_id", "name", "action", "enabled", "index", "predefined"],
          key ≠ "_id" → key ∈ policyFields := by decide
      exact hwritable key hown hid
    · exact absurd h.hits hhits
    · rcases List.mem_cons.1 (h.fields key hkept) with hkey | hkey
      · exact absurd hkey hid
      rcases List.mem_cons.1 hkey with rfl | hkey
      · exact absurd (by decide) hnamed
      · exact hkey

/-- **Which policies can be read, edited and staged again.**  A policy that the controller
answers with comes through exactly when its fields may all be written, but for `_id` and a
`hits` without a value. -/
theorem restages_iff (hredact : tools.KeepsKeys) (hkind : args.kind = .firewallPolicy)
    (hanswer : AnswersPolicy c args upstream raw) (hraw : HoldsPolicy raw entries)
    (hparse : FirewallPolicy.ofJson (.obj entries) = .ok p) :
    Restages c tools args upstream caches ↔ Restageable entries := by
  obtain ⟨written, hwritten, -⟩ := FirewallPolicy.mem_keys_toJson hparse
  obtain ⟨shown, hredacted, hkeys⟩ := hredact written
  have hshown := restageable_iff hparse hwritten
  rw [← hkeys] at hshown
  have hbody : ∀ changes : List (String × Json), (∀ key ∈ keys changes, key ∈ policyFields) →
      ((∀ key ∈ keys (restagedBody shown changes), key ∈ policyFields) ↔
        ∀ key ∈ keys shown, key ≠ "_id" → key ∈ policyFields) := by
    intro changes hchanges
    constructor
    · exact fun h key hkey hid => h key (mem_keys_restagedBody.2 (.inl ⟨hkey, hid⟩))
    · intro h key hkey
      rcases mem_keys_restagedBody.1 hkey with ⟨hkey, hid⟩ | hkey
      · exact h key hkey hid
      · exact hchanges key hkey
  unfold Restages
  rw [eval_getResource_policy hkind hanswer]
  by_cases hsingle : parseSingleResource tools.number .firewallPolicy raw = .ok p.toJson
  · have hgot : tools.projectResourceList .firewallPolicy p.toJson = .obj shown := by
      rw [hwritten]
      exact hredacted
    rw [hsingle]
    simp only [checkWritableFields_policy]
    constructor
    · rintro ⟨shown', hshown', hpass⟩
      obtain rfl : shown = shown' := Json.obj.inj (hgot.symm.trans (Except.ok.inj hshown'))
      exact hshown.1 ((hbody [] nofun).1 (hpass tools.number "" [] nofun))
    · intro h
      exact ⟨shown, congrArg Except.ok hgot,
        fun _ _ changes hchanges => (hbody changes hchanges).2 (hshown.2 h)⟩
  · -- a bare policy with a field `data`, which may not be written
    rcases hraw with rfl | rfl
    · have hdata : "data" ∈ keys entries := by
        by_contra hdata
        exact hsingle (parseSingleResource_bare hparse tools.number hdata)
      obtain ⟨e, hfailed⟩ := parseSingleResource_data tools.number hdata
      rw [hfailed]
      exact ⟨fun ⟨_, hshown', _⟩ => (nomatch hshown'),
        fun h => absurd (h.fields "data" hdata) (by decide)⟩
    · exact absurd (parseSingleResource_array hparse tools.number) hsingle

end Restage

/-! ## A policy that comes through and one that does not -/

/-- A policy that lets the phones reach a web server, as one controller sends it. -/
def phonesToWeb : List (String × Json) :=
  [("_id", .str "aaaaaaaaaaaaaaaaaaaaaaaa"), ("action", .str "ALLOW"), ("enabled", .bool true),
    ("index", .num (.posInt 10000)), ("name", .str "Phones to DMZ web (https)"),
    ("protocol", .str "tcp"), ("source", .obj [("zone_id", .str "bbbbbbbbbbbbbbbbbbbbbbbb")])]

/-- The same policy with the number of times it was hit. -/
def phonesToWebHit : List (String × Json) :=
  insertEntry "hits" (.num (.posInt 42)) phonesToWeb

/-- A client that may use the private surfaces, and a controller that has one policy. -/
def authorClient : UnifiClient where
  controller :=
    ⟨"https://unifi.example.org", "default", some "UNIFI_API_KEY", none, none, true, false⟩
  expandPath _ _ := .ok "/proxy/network/v2/api/site/default/firewall-policies/a"

def authorUpstream (entries : List (String × Json)) : Upstream := fun _ =>
  .ok ⟨200, "", .ok (.arr [.obj entries])⟩

def getPhonesToWeb : GetResourceArgs :=
  ⟨"main", .firewallPolicy, "aaaaaaaaaaaaaaaaaaaaaaaa", none⟩

theorem answersPolicy_phonesToWeb (entries : List (String × Json)) :
    AnswersPolicy authorClient getPhonesToWeb (authorUpstream entries) (.arr [.obj entries]) :=
  ⟨rfl, _, _, rfl, rfl, (show 200 < 300 by decide), rfl⟩

theorem parses_phonesToWeb :
    ∃ p, FirewallPolicy.ofJson (.obj phonesToWeb) = .ok p := ⟨_, rfl⟩

/-- A policy that nothing has hit comes through. -/
theorem restages_iff_phonesToWeb :
    Restages authorClient .plain getPhonesToWeb (authorUpstream phonesToWeb)
      ⟨.ok none, .ok none⟩ := by
  obtain ⟨p, hparse⟩ := parses_phonesToWeb
  refine (restages_iff (fun fields => ⟨fields, rfl, rfl⟩) rfl (answersPolicy_phonesToWeb _)
    (.inr rfl) hparse).2 ⟨by decide, by decide⟩

/-- One that has been hit does not: `hits` is shown, and may not be written. -/
theorem not_restages_phonesToWebHit :
    (∃ p, FirewallPolicy.ofJson (.obj phonesToWebHit) = .ok p) ∧
      ¬ Restages authorClient .plain getPhonesToWeb (authorUpstream phonesToWebHit)
        ⟨.ok none, .ok none⟩ := by
  refine ⟨⟨_, rfl⟩, ?_⟩
  rintro ⟨shown, hshown, hpass⟩
  have hgot : ((authorClient.getResource .plain getPhonesToWeb).eval
      (authorUpstream phonesToWebHit) ⟨.ok none, .ok none⟩).1 =
        .ok (.obj (insertEntry "predefined" (.bool false) phonesToWebHit)) := rfl
  cases hgot.symm.trans hshown
  have hkeys := (checkWritableFields_policy plainNumber "" _).1 (hpass plainNumber "" [] nofun)
  exact absurd (hkeys "hits" (by decide)) (by decide)

end UnifiMcp

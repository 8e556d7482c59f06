import UnifiMcp.Tools.ListPages
import UnifiMcp.Tools.Lossless

/-!
# Reading back what was written

What a tool shows of a resource is what its record is written with, and each record is read back
from that as it was: `structFields_record` says so of every struct, field by field, and the
records instantiate it.  A policy also keeps fields it has no name for (`FirewallPolicy.again`).
So a list that was read and written is read and written as it is, `parseResourceList_again`; of
the DHCP reservations none is left, since the mark by which they are told from the other clients
is not written.
-/

namespace UnifiMcp

open Collections

/-! ## Reading a struct from what it was written with -/

/-- The value of a field, if it is written, passes a check. -/
def Admits (check : FieldCheck) (value : Option Json) : Prop :=
  ∀ v, value = some v → check v = .ok ()

/-- The fields are written in the order of the checks, and each passes its own. -/
def Passes (checks : List (String × FieldCheck)) (fields : List (String × Option Json)) : Prop :=
  List.Forall₂ (fun check field => check.1 = field.1 ∧ Admits check.2 field.2) checks fields

section Structs

variable {checks : List (String × FieldCheck)} {fields : List (String × Option Json)}

theorem Passes.names (h : Passes checks fields) : checks.map Prod.fst = fields.map Prod.fst := by
  induction h with
  | nil => rfl
  | cons hhead _ ih => rw [List.map_cons, List.map_cons, hhead.1, ih]

/-- The check that a name has is passed by what is written under it. -/
theorem Passes.of_lookup (h : Passes checks fields) {name : String} {check : FieldCheck}
    (hcheck : checks.lookup name = some check) :
    ∃ value, (name, value) ∈ fields ∧ Admits check value := by
  induction h with
  | nil => cases hcheck
  | @cons head field _ _ hhead _ ih =>
      rw [List.lookup_cons] at hcheck
      by_cases hname : name = head.1
      · subst hname
        rw [beq_self_eq_true] at hcheck
        cases Option.some.inj hcheck
        exact ⟨field.2, hhead.1 ▸ List.mem_cons_self, hhead.2⟩
      · rw [beq_eq_false_iff_ne.2 hname] at hcheck
        obtain ⟨value, hvalue, hadmits⟩ := ih hcheck
        exact ⟨value, List.mem_cons_of_mem _ hvalue, hadmits⟩

/-- A reader of a struct takes an object that has the fields as they were written. -/
theorem structFields_written {entries : List (String × Json)} (type : String) (defaulted : Nat)
    (h : Passes checks fields) (hsorted : Ascending entries)
    (hfound : ∀ field ∈ fields, findEntry field.1 entries = field.2) :
    structFields type checks defaulted (.obj entries) = .ok entries := by
  refine bind_eq_ok.2 ⟨⟨⟩, forM_eq_ok.2 ?_, rfl⟩
  rintro ⟨key, v⟩ hmem
  dsimp only
  cases hcheck : checks.lookup key with
  | none => rfl
  | some check =>
      obtain ⟨value, hvalue, hadmits⟩ := h.of_lookup hcheck
      exact hadmits v ((hfound _ hvalue).symm.trans (hsorted.mem_iff.1 hmem))

variable {α : Type} {type : String} {a : α} {rest : List (String × Json) → Except DecodeError α}

/-- A reader of a struct that is given a record goes on with what the record was written with. -/
theorem structFields_record {defaulted : Nat} (h : Passes checks fields)
    (hnames : (checks.map Prod.fst).Nodup)
    (hrest : ∀ entries, (∀ field ∈ fields, findEntry field.1 entries = field.2) →
      rest entries = .ok a) :
    (structFields type checks defaulted (record fields) >>= rest) = .ok a := by
  rw [h.names] at hnames
  obtain ⟨entries, hrecord, hsorted, hfound, -⟩ := exists_record fields hnames
  rw [hrecord]
  exact bind_eq_ok.2 ⟨entries, structFields_written type defaulted h hsorted hfound,
    hrest entries hfound⟩

theorem structFieldsDefaulting_record {defaulted : List String} (h : Passes checks fields)
    (hnames : (checks.map Prod.fst).Nodup)
    (hrest : ∀ entries, (∀ field ∈ fields, findEntry field.1 entries = field.2) →
      rest entries = .ok a) :
    (structFieldsDefaulting type checks defaulted (record fields) >>= rest) = .ok a := by
  change (structFields type checks 0 (record fields) >>= rest) = .ok a
  exact structFields_record h hnames hrest

end Structs

/-! ## Reading a field from what it was written with -/

/-- Read what is found of a field that has to be there. -/
def readRequired (name : String) : Option Json → Except DecodeError Json
  | some v => .ok v
  | none => .error (.missingField name)

/-- Read what is found of a field that may be left out. -/
def readOptional {α : Type} (decode : Json → Except DecodeError α) :
    Option Json → Except DecodeError (Option α)
  | some v => decodeOption decode v
  | none => .ok none

/-- Read what is found of a field that has a default. -/
def readDefault {α : Type} (default : α) (decode : Json → Except DecodeError α) :
    Option Json → Except DecodeError α
  | some v => decode v
  | none => .ok default

section Fields

variable {α : Type} {decode : Json → Except DecodeError α} {encode : α → Json}

theorem field_eq (entries : List (String × Json)) (name : String) :
    field entries name = readRequired name (findEntry name entries) := rfl

theorem optionalField_eq (entries : List (String × Json)) (name : String)
    (decode : Json → Except DecodeError α) :
    optionalField entries name decode = readOptional decode (findEntry name entries) := rfl

theorem defaultField_eq (entries : List (String × Json)) (name : String) (default : α)
    (decode : Json → Except DecodeError α) :
    defaultField entries name default decode =
      readDefault default decode (findEntry name entries) := rfl

theorem readRequired_some (name : String) (v : Json) : readRequired name (some v) = .ok v := rfl

theorem readDefault_some (default : α) (v : Json) :
    readDefault default decode (some v) = decode v := rfl

/-- A decoder reads what was written, and what is written is not `null`. -/
structure Decodes (decode : Json → Except DecodeError α) (encode : α → Json) : Prop where
  decode (a : α) : decode (encode a) = .ok a
  nonnull (a : α) : encode a ≠ .null

namespace Decodes

theorem admits (h : Decodes decode encode) (a : α) :
    Admits (checking decode) (some (encode a)) := by
  rintro _ ⟨⟩
  exact bind_eq_ok.2 ⟨a, h.decode a, rfl⟩

theorem option (h : Decodes decode encode) (a : α) :
    decodeOption decode (encode a) = .ok (some a) := by
  have hread : decodeOption decode (encode a) = some <$> decode (encode a) := by
    unfold decodeOption
    split
    · rename_i hnull
      exact absurd hnull (h.nonnull a)
    · rfl
  rw [hread, h.decode]
  rfl

theorem admits_option (h : Decodes decode encode) (o : Option α) :
    Admits (checking (decodeOption decode)) (o.map encode) := by
  intro v hv
  obtain ⟨a, -, rfl⟩ := Option.map_eq_some_iff.1 hv
  exact bind_eq_ok.2 ⟨some a, h.option a, rfl⟩

theorem readOptional (h : Decodes decode encode) (o : Option α) :
    UnifiMcp.readOptional decode (o.map encode) = .ok o := by
  cases o with
  | none => rfl
  | some a => exact h.option a

end Decodes

theorem decodes_string : Decodes decodeString .str := ⟨fun _ => rfl, nofun⟩

theorem decodes_bool : Decodes decodeBool .bool := ⟨fun _ => rfl, nofun⟩

theorem decodes_u16 : Decodes decodeU16 fun n => .num (.posInt n.toUInt64) where
  decode n := by
    have hwidth : n.toUInt64.toNat < 2 ^ 16 := n.toNat_lt
    refine map_eq_ok.2 ⟨n.toUInt64.toNat, if_pos hwidth, ?_⟩
    simp
  nonnull := nofun

theorem decodes_u32 : Decodes decodeU32 fun n => .num (.posInt n.toUInt64) where
  decode n := by
    have hwidth : n.toUInt64.toNat < 2 ^ 32 := n.toNat_lt
    refine map_eq_ok.2 ⟨n.toUInt64.toNat, if_pos hwidth, ?_⟩
    simp
  nonnull := nofun

theorem decodes_u64 : Decodes decodeU64 fun n => .num (.posInt n) where
  decode n := by
    refine map_eq_ok.2 ⟨n.toNat, if_pos n.toNat_lt, ?_⟩
    simp
  nonnull := nofun

theorem decodes_strings : Decodes decodeStrings .ofNames where
  decode names := by
    change (names.map Json.str).mapM decodeString = .ok names
    rw [mapM_eq_ok]
    induction names with
    | nil => exact .nil
    | cons s names ih => exact .cons rfl ih
  nonnull := nofun

theorem ok_bind {ε β : Type} (a : α) (f : α → Except ε β) : (Except.ok a >>= f) = f a := rfl

end Fields

/-! ## The records -/

theorem Station.ofJson_toJson (s : Station) : Station.ofJson s.toJson = .ok s := by
  refine structFields_record ?_ (by decide) fun entries hfound => ?_
  · simp [Passes, decodes_string.admits, decodes_string.admits_option]
  · simp only [List.forall_mem_cons] at hfound
    simp only [field_eq, optionalField_eq, hfound, readRequired_some, ok_bind,
      decodes_string.decode, decodes_string.readOptional]
    rfl

theorem decodes_capability : Decodes DeviceCapability.ofJson DeviceCapability.toJson where
  decode c := by
    cases c with
    | names values =>
        have hread : (values.map Json.str).mapM Json.asStr? = some values := by
          induction values with
          | nil => rfl
          | cons s values ih => simp [Json.asStr?, ih]
        unfold DeviceCapability.toJson DeviceCapability.ofJson
        dsimp only
        rw [hread]
    | detail fields => rfl
  nonnull c := by cases c <;> nofun

theorem Device.ofJson_toJson (d : Device) : Device.ofJson d.toJson = .ok d := by
  have hcapability : ∀ entries name, Device.capability entries name =
      readDefault (.names []) DeviceCapability.ofJson (findEntry name entries) := fun _ _ => rfl
  refine structFields_record ?_ (by decide) fun entries hfound => ?_
  · simp [Passes, decodes_string.admits, decodes_string.admits_option, decodes_bool.admits,
      decodes_capability.admits]
  · simp only [List.forall_mem_cons] at hfound
    simp only [field_eq, optionalField_eq, hcapability, hfound, readRequired_some, readDefault_some,
      ok_bind, decodes_string.decode, decodes_string.readOptional, decodes_bool.decode,
      decodes_capability.decode]
    rfl

theorem NetworkConf.ofJson_toJson (n : NetworkConf) : NetworkConf.ofJson n.toJson = .ok n := by
  refine structFields_record ?_ (by decide) fun entries hfound => ?_
  · simp [Passes, decodes_string.admits, decodes_string.admits_option,
      decodes_bool.admits_option, decodes_u16.admits_option]
  · simp only [List.forall_mem_cons] at hfound
    simp only [field_eq, optionalField_eq, hfound, readRequired_some, ok_bind,
      decodes_string.decode, decodes_string.readOptional, decodes_bool.readOptional,
      decodes_u16.readOptional]
    rfl

theorem Wlan.ofJson_toJson (w : Wlan) : Wlan.ofJson w.toJson = .ok w := by
  refine structFields_record ?_ (by decide) fun entries hfound => ?_
  · simp [Passes, decodes_string.admits, decodes_string.admits_option, decodes_bool.admits]
  · simp only [List.forall_mem_cons] at hfound
    simp only [field_eq, optionalField_eq, defaultField_eq, hfound, readRequired_some,
      readDefault_some, ok_bind, decodes_string.decode, decodes_string.readOptional,
      decodes_bool.decode]
    rfl

theorem PortProfile.ofJson_toJson (p : PortProfile) : PortProfile.ofJson p.toJson = .ok p := by
  refine structFields_record ?_ (by decide) fun entries hfound => ?_
  · simp [Passes, decodes_string.admits, decodes_string.admits_option]
  · simp only [List.forall_mem_cons] at hfound
    simp only [field_eq, optionalField_eq, hfound, readRequired_some, ok_bind,
      decodes_string.decode, decodes_string.readOptional]
    rfl

theorem DhcpReservation.ofJson_toJson (d : DhcpReservation) :
    DhcpReservation.ofJson d.toJson = .ok d := by
  refine structFields_record ?_ (by decide) fun entries hfound => ?_
  · simp [Passes, decodes_string.admits, decodes_string.admits_option]
  · simp only [List.forall_mem_cons] at hfound
    simp only [field_eq, optionalField_eq, hfound, readRequired_some, ok_bind,
      decodes_string.decode, decodes_string.readOptional]
    rfl

/-- A reservation is not written with the mark that it was picked by. -/
theorem usesFixedIp_toJson (d : DhcpReservation) : usesFixedIp d.toJson = false := by
  have hnames : (["_id", "mac", "last_ip", "fixed_ip", "hostname"] : List String).Nodup := by
    decide
  obtain ⟨entries, hrecord, -, -, hother⟩ := exists_record
    [("_id", some (.str d.id)), ("mac", some (.str d.mac)), ("last_ip", d.lastIp.map .str),
      ("fixed_ip", d.fixedIp.map .str), ("hostname", d.hostname.map .str)] hnames
  have hmark : d.toJson.get? "use_fixedip" = none := by
    unfold DhcpReservation.toJson
    rw [hrecord, Json.get?_obj]
    exact hother "use_fixedip" (by simp)
  unfold usesFixedIp
  rw [hmark]
  rfl

theorem RadiusProfile.ofJson_toJson (p : RadiusProfile) :
    RadiusProfile.ofJson p.toJson = .ok p := by
  refine structFields_record ?_ (by decide) fun entries hfound => ?_
  · simp [Passes, decodes_string.admits, decodes_string.admits_option]
  · simp only [List.forall_mem_cons] at hfound
    simp only [field_eq, optionalField_eq, hfound, readRequired_some, ok_bind,
      decodes_string.decode, decodes_string.readOptional]
    rfl

theorem FirewallGroup.ofJson_toJson (g : FirewallGroup) :
    FirewallGroup.ofJson g.toJson = .ok g := by
  refine structFields_record ?_ (by decide) fun entries hfound => ?_
  · simp [Passes, decodes_string.admits, decodes_string.admits_option, decodes_strings.admits]
  · simp only [List.forall_mem_cons] at hfound
    simp only [field_eq, optionalField_eq, hfound, readRequired_some, ok_bind,
      decodes_string.decode, decodes_string.readOptional, decodes_strings.decode]
    rfl

theorem FirewallZone.ofJson_toJson (z : FirewallZone) : FirewallZone.ofJson z.toJson = .ok z := by
  refine structFieldsDefaulting_record ?_ (by decide) fun entries hfound => ?_
  · simp [Passes, decodes_string.admits, decodes_string.admits_option, decodes_bool.admits,
      decodes_strings.admits]
  · simp only [List.forall_mem_cons] at hfound
    simp only [field_eq, optionalField_eq, defaultField_eq, hfound, readRequired_some,
      readDefault_some, ok_bind, decodes_string.decode, decodes_string.readOptional,
      decodes_bool.decode, decodes_strings.decode]
    rfl

theorem Route.ofJson_toJson (r : Route) : Route.ofJson r.toJson = .ok r := by
  refine structFields_record ?_ (by decide) fun entries hfound => ?_
  · simp [Passes, decodes_string.admits, decodes_string.admits_option, decodes_bool.admits,
      decodes_u32.admits_option]
  · simp only [List.forall_mem_cons] at hfound
    simp only [field_eq, optionalField_eq, hfound, readRequired_some, ok_bind,
      decodes_string.decode, decodes_string.readOptional, decodes_bool.decode,
      decodes_u32.readOptional]
    rfl

theorem TrafficRoute.ofJson_toJson (r : TrafficRoute) : TrafficRoute.ofJson r.toJson = .ok r := by
  refine structFields_record ?_ (by decide) fun entries hfound => ?_
  · simp [Passes, decodes_string.admits, decodes_string.admits_option]
  · simp only [List.forall_mem_cons] at hfound
    simp only [field_eq, optionalField_eq, hfound, readRequired_some, ok_bind,
      decodes_string.decode, decodes_string.readOptional]
    rfl

theorem PortForward.ofJson_toJson (p : PortForward) : PortForward.ofJson p.toJson = .ok p := by
  refine structFields_record ?_ (by decide) fun entries hfound => ?_
  · simp [Passes, decodes_string.admits, decodes_string.admits_option, decodes_bool.admits,
      decodes_bool.admits_option]
  · simp only [List.forall_mem_cons] at hfound
    simp only [field_eq, optionalField_eq, hfound, readRequired_some, ok_bind,
      decodes_string.decode, decodes_string.readOptional, decodes_bool.decode,
      decodes_bool.readOptional]
    rfl

/-- A rule's index is written as a number, which is one of the ways it may come. -/
theorem deserializeRuleIndex_u32 (number : Number → String) (n : UInt32) :
    deserializeRuleIndex number (.num (.posInt n.toUInt64)) = .ok (some n) := by
  have hwidth : n.toUInt64.toNat < 2 ^ 32 := n.toNat_lt
  refine (if_pos hwidth).trans ?_
  simp

theorem FirewallRule.ofJson_toJson (number : Number → String) (r : FirewallRule) :
    FirewallRule.ofJson number r.toJson = .ok r := by
  have hindex : Admits (checking (deserializeRuleIndex number))
      (r.ruleIndex.map fun index => .num (.posInt index.toUInt64)) := by
    intro v hv
    obtain ⟨n, -, rfl⟩ := Option.map_eq_some_iff.1 hv
    exact bind_eq_ok.2 ⟨some n, deserializeRuleIndex_u32 number n, rfl⟩
  have hread : readDefault none (deserializeRuleIndex number)
      (r.ruleIndex.map fun index => .num (.posInt index.toUInt64)) = .ok r.ruleIndex := by
    cases r.ruleIndex with
    | none => rfl
    | some n => exact deserializeRuleIndex_u32 number n
  refine structFieldsDefaulting_record ?_ (by simp only [List.map]; decide) fun entries hfound => ?_
  · simp [Passes, hindex, decodes_string.admits, decodes_string.admits_option,
      decodes_bool.admits, decodes_bool.admits_option, decodes_strings.admits_option]
  · simp only [List.forall_mem_cons] at hfound
    simp only [field_eq, optionalField_eq, defaultField_eq, hfound, readRequired_some, hread,
      ok_bind, decodes_string.decode, decodes_string.readOptional, decodes_bool.decode,
      decodes_bool.readOptional, decodes_strings.readOptional]
    rfl

/-! ## Policies -/

namespace FirewallPolicy

/-- What a policy's own fields are written as is what they are read from. -/
theorem passes_own (p : FirewallPolicy) : Passes checks p.own := by
  simp [Passes, checks, own, decodes_string.admits, decodes_bool.admits, decodes_u32.admits,
    decodes_u64.admits_option]

/-- A policy is read from its own fields, and keeps the others. -/
theorem ofJson_written (p : FirewallPolicy) {entries : List (String × Json)}
    (hsorted : Ascending entries) (hfound : ∀ field ∈ p.own, findEntry field.1 entries = field.2) :
    ofJson (.obj entries) =
      .ok { p with rest := entries.filter fun entry => !named.contains entry.1 } := by
  refine bind_eq_ok.2 ⟨entries, structFields_written _ 0 p.passes_own hsorted hfound, ?_⟩
  unfold own at hfound
  simp only [List.forall_mem_cons] at hfound
  simp only [field_eq, optionalField_eq, defaultField_eq, hfound, readRequired_some,
    readDefault_some, ok_bind, decodes_string.decode, decodes_bool.decode, decodes_u32.decode,
    decodes_u64.readOptional]
  rfl

/-- Putting fields keeps what is under other names. -/
theorem foldl_fields_others (fields : List (String × Option Json)) (entries : List (String × Json))
    (hsorted : Ascending entries) :
    ∃ entries', fields.foldl (fun entries (key, value) =>
        match value with
        | some v => insertEntry key v entries
        | none => entries) entries = entries' ∧ Ascending entries' ∧
      ∀ key, key ∉ fields.map Prod.fst → findEntry key entries' = findEntry key entries := by
  induction fields generalizing entries with
  | nil => exact ⟨entries, rfl, hsorted, fun _ _ => rfl⟩
  | cons field rest ih =>
      obtain ⟨name, value⟩ := field
      cases value with
      | none =>
          obtain ⟨entries', hfold, hsorted', hother⟩ := ih entries hsorted
          exact ⟨entries', hfold, hsorted', fun key hkey =>
            hother key fun h => hkey (List.mem_cons_of_mem _ h)⟩
      | some v =>
          obtain ⟨entries', hfold, hsorted', hother⟩ :=
            ih (insertEntry name v entries) (hsorted.insertEntry name v)
          refine ⟨entries', hfold, hsorted', fun key hkey => ?_⟩
          rw [List.map_cons, List.mem_cons, not_or] at hkey
          exact (hother key hkey.2).trans (findEntry_insertEntry_of_ne hkey.1 v entries)

/-- A policy is written in the order of the keys, its own fields as they are. -/
theorem exists_written {p : FirewallPolicy} (hrest : ∀ key ∈ keys p.rest, key ∉ named) :
    ∃ shown, p.toJson = .obj shown ∧ Ascending shown ∧
      ∀ field ∈ p.own, findEntry field.1 shown = field.2 := by
  obtain ⟨entries, hrecord, hsorted, hfound, -⟩ := exists_record p.own (by decide : named.Nodup)
  obtain ⟨shown, hfold, hsorted', hother⟩ :=
    foldl_fields_others (p.rest.map fun entry => (entry.1, some entry.2)) entries hsorted
  refine ⟨shown, ?_, hsorted', fun field hfield => ?_⟩
  · rw [← hfold, ← Json.obj.inj hrecord]
    exact congrArg Json.obj List.foldl_append
  · have hnamed : field.1 ∈ named := p.map_fst_own ▸ List.mem_map_of_mem hfield
    rw [hother, hfound field hfield]
    rw [List.map_map]
    exact fun hkey => hrest field.1 hkey hnamed

/-- **A policy that was read is read back from what it is written with.** -/
theorem again {v : Json} {p : FirewallPolicy} (h : ofJson v = .ok p) :
    ∃ p', ofJson p.toJson = .ok p' ∧ p'.toJson = p.toJson := by
  cases v with
  | null | bool _ | num _ | str _ | arr _ => cases h
  | obj entries =>
      obtain ⟨-, hkept⟩ := ofJson_eq_ok h
      have hrest : ∀ key ∈ keys p.rest, key ∉ named := by
        rw [hkept, keys_filter fun key => !named.contains key]
        intro key hkey
        simpa using (List.mem_filter.1 hkey).2
      obtain ⟨shown, hshown, hsorted, hown⟩ := exists_written hrest
      rw [hshown]
      have hread := p.ofJson_written hsorted hown
      refine ⟨_, hread, ?_⟩
      -- both are in the order of their keys, and under each key they have the same
      obtain ⟨shown', hshown', hsorted', hown', hother⟩ := exists_toJson hread hsorted
      rw [hshown', hsorted'.ext hsorted fun key => ?_]
      by_cases hkey : key ∈ named
      · obtain ⟨field, hfield, rfl⟩ := List.mem_map.1 (p.map_fst_own ▸ hkey)
        rw [hown field hfield]
        exact hown' field hfield
      · exact hother key hkey

end FirewallPolicy

/-! ## Lists -/

section Lists

variable {number : Number → String} {k : ResourceKind}

/-- A parser reads the items of an envelope, so it gives nothing of an answer that has none. -/
theorem collectionItems_of_parsed {raw whole : Json}
    (h : parseResourceList number k raw = .ok whole) :
    ∃ items, collectionItems k.surface raw = .ok items := by
  cases hitems : collectionItems k.surface raw with
  | ok items => exact ⟨items, rfl⟩
  | error e =>
      have henveloped : ∀ {α : Type} (toJson : α → Json)
          (f : List Json → Except UnifiError (List α)), unwrapEnvelopedData raw = .error e →
            rendered toJson (unwrapEnvelopedData raw >>= f) = .error e := by
        intro α toJson f herror
        rw [herror]
        rfl
      have hbare : ∀ {α : Type} (toJson : α → Json)
          (f : List Json → Except UnifiError (List α)), unwrapPrivateV2Data raw = .error e →
            rendered toJson (unwrapPrivateV2Data raw >>= f) = .error e := by
        intro α toJson f herror
        rw [herror]
        rfl
      have herror : parseResourceList number k raw = .error e := by
        cases k with
        | firewallPolicy | firewallZone | trafficRoute => exact hbare _ _ hitems
        | station | device | network | wlan | portProfile | dhcpReservation | firewallGroup
        | radiusProfile | firewallRule | portForward | staticRoute => exact henveloped _ _ hitems
      cases herror.symm.trans h

/-- A record that is read back from what it is written with. -/
theorem readItem_again {α : Type} {what : String} {ofJson : Json → Except DecodeError α}
    {toJson : α → Json}
    (hback : ∀ v a, ofJson v = .ok a → ∃ a', ofJson (toJson a) = .ok a' ∧ toJson a' = toJson a)
    {item shown : Json} (h : readItem what ofJson toJson item = .ok shown) :
    readItem what ofJson toJson shown = .ok shown := by
  obtain ⟨a, hread, rfl⟩ := map_eq_ok.1 h
  cases hitem : ofJson item with
  | error e =>
      rw [hitem] at hread
      cases hread
  | ok a₀ =>
      rw [hitem] at hread
      cases hread
      obtain ⟨a', hread', hsame⟩ := hback item a hitem
      unfold readItem
      rw [hread']
      exact congrArg Except.ok hsame

/-- Each kind reads back what it has read, and picks it unless it is a reservation. -/
theorem exists_readsItems_again (number : Number → String) (k : ResourceKind) :
    ∃ select read, ReadsItems number k select read ∧
      ∀ item shown, read item = .ok shown →
        read shown = .ok shown ∧ select shown = decide (k ≠ .dhcpReservation) := by
  have hrecord : ∀ {α : Type} {what : String} {ofJson : Json → Except DecodeError α}
      {toJson : α → Json}, (∀ a, ofJson (toJson a) = .ok a) → ∀ item shown,
        readItem what ofJson toJson item = .ok shown →
          readItem what ofJson toJson shown = .ok shown ∧ true = true :=
    fun hback _ _ h => ⟨readItem_again (fun _ a _ => ⟨a, hback a, rfl⟩) h, rfl⟩
  cases k with
  | dhcpReservation =>
      refine ⟨_, _, ⟨fun h => rendered_parseDhcpReservations h, nofun⟩, fun item shown h => ?_⟩
      refine ⟨(hrecord DhcpReservation.ofJson_toJson item shown h).1, ?_⟩
      obtain ⟨d, -, rfl⟩ := map_eq_ok.1 h
      exact usesFixedIp_toJson d
  | firewallPolicy =>
      exact ⟨_, _, ⟨fun h => rendered_parseBareItems h, fun _ _ => rfl⟩, fun _ _ h =>
        ⟨readItem_again (fun _ _ => FirewallPolicy.again) h, rfl⟩⟩
  | firewallZone =>
      exact ⟨_, _, ⟨fun h => rendered_parseBareItems h, fun _ _ => rfl⟩,
        hrecord FirewallZone.ofJson_toJson⟩
  | trafficRoute =>
      exact ⟨_, _, ⟨fun h => rendered_parseBareItems h, fun _ _ => rfl⟩,
        hrecord TrafficRoute.ofJson_toJson⟩
  | station =>
      exact ⟨_, _, ⟨fun h => rendered_parseItems h, fun _ _ => rfl⟩, hrecord Station.ofJson_toJson⟩
  | device =>
      exact ⟨_, _, ⟨fun h => rendered_parseItems h, fun _ _ => rfl⟩, hrecord Device.ofJson_toJson⟩
  | network =>
      exact ⟨_, _, ⟨fun h => rendered_parseItems h, fun _ _ => rfl⟩,
        hrecord NetworkConf.ofJson_toJson⟩
  | wlan =>
      exact ⟨_, _, ⟨fun h => rendered_parseItems h, fun _ _ => rfl⟩, hrecord Wlan.ofJson_toJson⟩
  | portProfile =>
      exact ⟨_, _, ⟨fun h => rendered_parseItems h, fun _ _ => rfl⟩,
        hrecord PortProfile.ofJson_toJson⟩
  | firewallGroup =>
      exact ⟨_, _, ⟨fun h => rendered_parseItems h, fun _ _ => rfl⟩,
        hrecord FirewallGroup.ofJson_toJson⟩
  | radiusProfile =>
      exact ⟨_, _, ⟨fun h => rendered_parseItems h, fun _ _ => rfl⟩,
        hrecord RadiusProfile.ofJson_toJson⟩
  | firewallRule =>
      exact ⟨_, _, ⟨fun h => rendered_parseItems h, fun _ _ => rfl⟩,
        hrecord (FirewallRule.ofJson_toJson number)⟩
  | portForward =>
      exact ⟨_, _, ⟨fun h => rendered_parseItems h, fun _ _ => rfl⟩,
        hrecord PortForward.ofJson_toJson⟩
  | staticRoute =>
      exact ⟨_, _, ⟨fun h => rendered_parseItems h, fun _ _ => rfl⟩, hrecord Route.ofJson_toJson⟩

/-- **What is shown of a list is read back as it is**, for every kind and every answer of the
controller; but of the DHCP reservations, which are told from other clients by a field that is not
shown, nothing is. -/
theorem parseResourceList_again {raw : Json} {items : List Json}
    (h : parseResourceList number k raw = .ok (.arr items)) :
    parseResourceList number k (wholeCollection k items) =
      .ok (.arr (if k = .dhcpReservation then [] else items)) := by
  obtain ⟨select, read, hreads, hagain⟩ := exists_readsItems_again number k
  obtain ⟨found, hfound⟩ := collectionItems_of_parsed h
  rw [hreads.parse hfound] at h
  obtain ⟨_, hread, hitems⟩ := map_eq_ok.1 h
  cases hitems
  have hshown : ∀ shown ∈ items,
      read shown = .ok shown ∧ select shown = decide (k ≠ .dhcpReservation) := by
    intro shown hmem
    obtain ⟨item, -, hitem⟩ := exists_of_mem_mapM hread hmem
    exact hagain item shown hitem
  rw [hreads.parse (collectionItems_wholeCollection k items)]
  by_cases hk : k = .dhcpReservation
  · have hnone : items.filter select = [] := by
      refine List.filter_eq_nil_iff.2 fun shown hmem => ?_
      rw [(hshown shown hmem).2]
      simp [hk]
    rw [hnone, if_pos hk]
    rfl
  · have hall : items.filter select = items := by
      refine List.filter_eq_self.2 fun shown hmem => ?_
      rw [(hshown shown hmem).2]
      simp [hk]
    have hsame : items.mapM read = .ok items := by
      refine mapM_eq_ok.2 ?_
      rw [List.forall₂_same]
      exact fun shown hmem => (hshown shown hmem).1
    rw [hall, hsame, if_neg hk]
    rfl

/-- A policy that does not say whether it is predefined is shown with a field more, and that is
read back. -/
theorem parseResourceList_again_phonesToWeb :
    parseResourceList (fun _ => "") .firewallPolicy (wholeCollection .firewallPolicy
        [.obj (insertEntry "predefined" (.bool false) phonesToWeb)]) =
      .ok (.arr [.obj (insertEntry "predefined" (.bool false) phonesToWeb)]) := by
  have hshown : parseResourceList (fun _ => "") .firewallPolicy (.arr [.obj phonesToWeb]) =
      .ok (.arr [.obj (insertEntry "predefined" (.bool false) phonesToWeb)]) := rfl
  exact parseResourceList_again hshown

end Lists

end UnifiMcp

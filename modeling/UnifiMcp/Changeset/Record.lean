import UnifiMcp.Changeset.Preimage

/-!
# The stored form of a plan

A change-set record stores its plan as a list of JSON actions, one for each mutation,
holding the mutation and the pre-image entry it was planned against.  `StagedAction`
is one of them, with the reader and the writer `serde` derives for it; reading back what
was written gives the action again, apart from a pre-image entry that is `null`, which
is read as no entry.
-/

namespace UnifiMcp

/-! ## Reading values -/

/-- Why a value could not be read.  The rendering differs from `serde`'s for a double, which is
given as the fraction it denotes, and for a text with characters that `String.quote` escapes
otherwise than `{:?}` does. -/
inductive DecodeError where
  | invalidType (found : Json) (expected : String)
  | invalidValue (expected : String)
  | invalidLength (length : Nat) (expected : String)
  | unknownField (field : String) (expected : List String)
  | unknownVariant (variant : String) (expected : List String)
  | missingField (field : String)
  | structVariantExpected
  | outOfRange (found : Json) (expected : String)
  | untaggedMismatch (type : String)
  | custom (message : String)
  deriving DecidableEq, Repr

/-- What `serde` calls a value it did not expect. -/
def unexpected : Json → String
  | .null => "null"
  | .bool b => s!"boolean `{b}`"
  | .num (.posInt n) => s!"integer `{n.toNat}`"
  | .num (.negInt n) => s!"integer `{n.toInt}`"
  | .num (.float q) => s!"floating point `{q.num}/{q.den}`"
  | .str s => s!"string {s.quote}"
  | .arr _ => "sequence"
  | .obj _ => "map"

/-- The names of a list in backquotes, as `serde` lists what it expected. -/
def oneOf : List String → String
  | [a] => s!"`{a}`"
  | [a, b] => s!"`{a}` or `{b}`"
  | names => "one of " ++ ", ".intercalate (names.map fun name => s!"`{name}`")

/-- The text a decoding error renders. -/
def DecodeError.toString : DecodeError → String
  | .invalidType found expected => s!"invalid type: {unexpected found}, expected {expected}"
  | .invalidValue expected => s!"invalid value: map, expected {expected}"
  | .invalidLength length expected => s!"invalid length {length}, expected {expected}"
  | .unknownField field expected => s!"unknown field `{field}`, expected {oneOf expected}"
  | .unknownVariant variant expected =>
      s!"unknown variant `{variant}`, expected {oneOf expected}"
  | .missingField field => s!"missing field `{field}`"
  | .structVariantExpected => "invalid type: unit variant, expected struct variant"
  | .outOfRange found expected => s!"invalid value: {unexpected found}, expected {expected}"
  | .untaggedMismatch type => s!"data did not match any variant of untagged enum {type}"
  | .custom message => message

/-- A required field of an object. -/
def field (fields : List (String × Json)) (name : String) : Except DecodeError Json :=
  match Collections.findEntry name fields with
  | some v => .ok v
  | none => .error (.missingField name)

/-- A value that has to be a string. -/
def decodeString : Json → Except DecodeError String
  | .str s => .ok s
  | v => .error (.invalidType v "a string")

/-! ## Mutations -/

namespace StagedMutation

/-- The names of the variants, in declaration order. -/
def variants : List String := ["Create", "Update", "Delete", "Restore"]

/-- A mutation as it is stored: an object whose one key names the variant. -/
def toJson : StagedMutation → Json
  | .create kind body => .obj [("Create", .obj [("body", body), ("kind", .str kind)])]
  | .update kind id body =>
      .obj [("Update", .obj [("body", body), ("id", .str id), ("kind", .str kind)])]
  | .delete kind id => .obj [("Delete", .obj [("id", .str id), ("kind", .str kind)])]
  | .restore backupId => .obj [("Restore", .obj [("backup_id", .str backupId)])]

/-- Read the fields of a variant. -/
def ofFields (variant : String) (fields : List (String × Json)) :
    Except DecodeError StagedMutation :=
  match variant with
  | "Create" => do
      let kind ← decodeString (← field fields "kind")
      let body ← field fields "body"
      pure (.create kind body)
  | "Update" => do
      let kind ← decodeString (← field fields "kind")
      let id ← decodeString (← field fields "id")
      let body ← field fields "body"
      pure (.update kind id body)
  | "Delete" => do
      let kind ← decodeString (← field fields "kind")
      let id ← decodeString (← field fields "id")
      pure (.delete kind id)
  | "Restore" => do
      let backupId ← decodeString (← field fields "backup_id")
      pure (.restore backupId)
  | _ => .error (.unknownVariant variant variants)

/-- Read a mutation. -/
def ofJson : Json → Except DecodeError StagedMutation
  | .obj [(variant, .obj fields)] => ofFields variant fields
  | .obj [(variant, content)] =>
      if variant ∈ variants then .error (.invalidType content "struct variant")
      else .error (.unknownVariant variant variants)
  | .obj _ => .error (.invalidValue "map with a single key")
  | .str variant =>
      if variant ∈ variants then .error .structVariantExpected
      else .error (.unknownVariant variant variants)
  | v => .error (.invalidType v "string or map")

/-- A stored mutation reads back as itself. -/
theorem ofJson_toJson (m : StagedMutation) : ofJson m.toJson = .ok m := by
  cases m <;> rfl

end StagedMutation

/-! ## Actions -/

/-- One entry of a change set's `actions`: a mutation, and the resource as it stood when
the mutation was staged. -/
structure StagedAction where
  mutation : StagedMutation
  preimage : Option Json
  deriving DecidableEq, Repr

namespace StagedAction

/-- The fields of an action. -/
def fieldNames : List String := ["mutation", "preimage"]

/-- An action as it is stored; an absent pre-image entry is left out. -/
def toJson (action : StagedAction) : Json :=
  .obj (("mutation", action.mutation.toJson) ::
    (action.preimage.map fun v => ("preimage", v)).toList)

/-- A pre-image entry that is `null` is read as no entry. -/
def nonNull : Option Json → Option Json
  | some .null => none
  | v => v

/-- Read an action; no field but the two is allowed. -/
def ofJson : Json → Except DecodeError StagedAction
  | .obj fields =>
      match fields.find? fun e => !fieldNames.contains e.1 with
      | some (unknown, _) => .error (.unknownField unknown fieldNames)
      | none => do
          let mutation ← StagedMutation.ofJson (← field fields "mutation")
          pure ⟨mutation, nonNull (Collections.findEntry "preimage" fields)⟩
  | .arr [] => .error (.invalidLength 0 "struct StagedAction with 2 elements")
  | .arr [m] => do
      let mutation ← StagedMutation.ofJson m
      pure ⟨mutation, none⟩
  | .arr [m, v] => do
      let mutation ← StagedMutation.ofJson m
      pure ⟨mutation, nonNull (some v)⟩
  | .arr (m :: _ :: _ :: rest) => do
      let _ ← StagedMutation.ofJson m
      .error (.invalidLength (rest.length + 3) "fewer elements in array")
  | v => .error (.invalidType v "struct StagedAction")

/-- **A stored action reads back**, a `null` pre-image entry as no entry. -/
theorem ofJson_toJson (action : StagedAction) :
    ofJson action.toJson = .ok { action with preimage := nonNull action.preimage } := by
  obtain ⟨mutation, preimage⟩ := action
  cases preimage with
  | none =>
      show (do
        let m ← StagedMutation.ofJson mutation.toJson
        pure (⟨m, none⟩ : StagedAction) : Except DecodeError StagedAction) = _
      rw [StagedMutation.ofJson_toJson]
      rfl
  | some v =>
      show (do
        let m ← StagedMutation.ofJson mutation.toJson
        pure (⟨m, nonNull (some v)⟩ : StagedAction) : Except DecodeError StagedAction) = _
      rw [StagedMutation.ofJson_toJson]
      rfl

end StagedAction

/-- Pair each mutation with its pre-image entry, in staging order. -/
def actionsFor (mutations : List StagedMutation) (preimage : Preimage) : List StagedAction :=
  mutations.map fun mutation => ⟨mutation, mutation.resourceId.bind preimage.getResource⟩

/-- Read actions back off a stored record, from position `position` on. -/
def actionsFrom (position : Nat) : List Json → Except UnifiError (List StagedAction)
  | [] => .ok []
  | action :: rest => do
      let head ← (StagedAction.ofJson action).mapError fun error =>
        .malformed s!"change set action {position} is not a staged action: {error.toString}"
      let tail ← actionsFrom (position + 1) rest
      pure (head :: tail)

/-- Read the actions back off a stored record. -/
def actionsOf (actions : List Json) : Except UnifiError (List StagedAction) :=
  actionsFrom 0 actions

/-- The mutations a stored record plans, in staging order. -/
def mutationsOf (actions : List Json) : Except UnifiError (List StagedMutation) := do
  let actions ← actionsOf actions
  pure (actions.map (·.mutation))

/-- The pre-image a stored record was planned against. -/
def preimageOf (actions : List Json) : Except UnifiError Preimage := do
  let actions ← actionsOf actions
  pure (Preimage.fromResources (actions.filterMap (·.preimage)))

/-- What is read back from stored actions. -/
theorem actionsOf_toJson (actions : List StagedAction) :
    actionsOf (actions.map StagedAction.toJson) =
      .ok (actions.map fun a => { a with preimage := StagedAction.nonNull a.preimage }) := by
  suffices h : ∀ position, actionsFrom position (actions.map StagedAction.toJson) =
      .ok (actions.map fun a => { a with preimage := StagedAction.nonNull a.preimage }) from h 0
  induction actions with
  | nil => exact fun _ => rfl
  | cons a rest ih =>
      intro position
      rw [List.map_cons, actionsFrom, StagedAction.ofJson_toJson, ih]
      rfl

/-- **The stored form keeps the plan**: mutations and order. -/
theorem mutationsOf_actionsFor (mutations : List StagedMutation) (preimage : Preimage) :
    mutationsOf ((actionsFor mutations preimage).map StagedAction.toJson) = .ok mutations := by
  rw [mutationsOf, actionsOf_toJson]
  show Except.ok _ = _
  simp [actionsFor, Function.comp_def]

/-- And of the pre-image what the plan's ids look up, in plan order. -/
theorem preimageOf_actionsFor (mutations : List StagedMutation) (preimage : Preimage) :
    preimageOf ((actionsFor mutations preimage).map StagedAction.toJson) =
      .ok (Preimage.fromResources (mutations.filterMap fun m =>
        StagedAction.nonNull (m.resourceId.bind preimage.getResource))) := by
  rw [preimageOf, actionsOf_toJson]
  show Except.ok _ = _
  simp [actionsFor, List.filterMap_map, Function.comp_def]

end UnifiMcp

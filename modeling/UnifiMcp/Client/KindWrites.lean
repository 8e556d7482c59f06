import UnifiMcp.Client.Store

/-!
# Mutations as single writes

To apply a mutation and to roll one back is to write once: the kind is read, the site is found, a
body is made up, and one request goes to the collection of the kind or to one of its resources.
`KindWrite` is that form.  `applyMutation_cases` and `rollbackMutation_cases` say that each of the
two refuses or is such a write, and which resource the write is for.  So what is true of refusals
and of all writes is true of both, and what a client asks for a mutation is gone through here and
nowhere else.
-/

namespace UnifiMcp

open Interaction

/-- The kind a mutation names. -/
def StagedMutation.kind? : StagedMutation → Option String
  | .create kind _ | .update kind _ _ | .delete kind _ => some kind
  | .restore _ => none

/-- What a write sends. -/
inductive WriteBody where
  | empty
  | whole (value : Json)
  /-- The staged fields, merged over what is there if the surface asks for that. -/
  | merged (id : String) (staged : Json)

/-- One write to a kind of resource. -/
structure KindWrite (α : Type) where
  kind : String
  /-- Why it may be refused although its kind exists. -/
  check : Except UnifiError Unit
  method : Method
  /-- The resource it is for; a collection has none. -/
  id : Option String
  body : WriteBody
  /-- What is read off the answer. -/
  result : ResourceKind → Json → Except UnifiError α

namespace KindWrite

variable {α : Type}

/-- Where it is sent. -/
def template (w : KindWrite α) (k : ResourceKind) : String :=
  match w.id with
  | some _ => k.singleResourceTemplate
  | none => k.pathTemplate

/-- The parameters of its path. -/
def params (w : KindWrite α) (site : String) : List (String × String) :=
  ("site", site) :: match w.id with
    | some id => [("id", id)]
    | none => []

/-- It applies a mutation: to the resource that the mutation addresses, and as a POST only if the
mutation creates. -/
structure Applies (w : KindWrite α) (m : StagedMutation) : Prop where
  kind : m.kind? = some w.kind
  target : ∀ id, w.id = some id → m.target = some (w.kind, id)
  post : w.method = .post → ∃ kind body, m = .create kind body

/-- It undoes a mutation: at the resource that the mutation addresses or has created, and without
reading it. -/
structure Undoes (w : KindWrite α) (m : StagedMutation) (createdId : Option String) : Prop where
  kind : m.kind? = some w.kind
  target : ∀ id, w.id = some id → m.target = some (w.kind, id) ∨
    (∃ body, m = .create w.kind body) ∧ createdId = some id
  body : ∀ id staged, w.body ≠ .merged id staged

end KindWrite

namespace UnifiClient

variable {c : UnifiClient} {α : Type}

variable (c) in
/-- Make up the body of a write. -/
def writeBody (kind : String) (k : ResourceKind) : WriteBody → ClientM (Option Json)
  | .empty => pure none
  | .whole value => pure (some value)
  | .merged id staged => do
      let body ← c.mergedBody k.surface kind id staged
      pure (some body)

variable (c) in
/-- The request of a write. -/
def sendWrite (w : KindWrite α) (k : ResourceKind) (site : String) (body : Option Json) :
    ClientM Json :=
  c.request w.method k.surface (w.template k) (w.params site) [] body

variable (c) in
/-- Write once. -/
def write (w : KindWrite α) : ClientM α := do
  let k ← parseKind w.kind
  Fallible.ofExcept w.check
  let site ← c.defaultSiteFor k.surface
  let body ← c.writeBody w.kind k w.body
  let response ← c.sendWrite w k site body
  Fallible.ofExcept (w.result k response)

/-! ## Applying and rolling back -/

/-- A create is posted to the collection, and the id is read off the answer. -/
def createWrite (kind : String) (body : Json) : KindWrite (Option String) where
  kind
  check := .ok ()
  method := .post
  id := none
  body := .whole body
  result k response := (createdIdOf k.surface kind response).map some

/-- An update is put to the resource, unless it is one of a device. -/
def updateWrite (kind id : String) (body : Json) : KindWrite (Option String) where
  kind
  check := if kind = "device" then .error (.malformed deviceWritesRefused) else .ok ()
  method := .put
  id := some id
  body := .merged id body
  result _ _ := .ok none

/-- The other writes are not checked, and nothing is read off their answers. -/
def plainWrite (kind : String) (method : Method) (id : Option String) (body : WriteBody)
    (done : α) : KindWrite α where
  kind
  check := .ok ()
  method
  id
  body
  result _ _ := .ok done

theorem applyMutation_create (kind : String) (body : Json) :
    c.applyMutation (.create kind body) = c.write (createWrite kind body) := by
  refine bind_congr fun k => bind_congr fun site => bind_congr fun response => ?_
  change (Fallible.ofExcept (createdIdOf k.surface kind response) >>= fun id =>
    pure (some id)) = Fallible.ofExcept ((createdIdOf k.surface kind response).map some)
  cases createdIdOf k.surface kind response <;> rfl

theorem applyMutation_update (kind id : String) (body : Json) :
    c.applyMutation (.update kind id body) = c.write (updateWrite kind id body) := by
  refine bind_congr fun k => ?_
  by_cases hdevice : kind = "device"
  · simp only [updateWrite, if_pos hdevice]
    rfl
  · simp only [updateWrite, if_neg hdevice]
    refine bind_congr fun site => ?_
    rw [writeBody, bind_assoc]
    rfl

/-- **Applying a mutation** is refused or is one write. -/
theorem applyMutation_cases (m : StagedMutation) :
    (∃ e, c.applyMutation m = throw e) ∨
      ∃ w : KindWrite (Option String), c.applyMutation m = c.write w ∧ w.Applies m := by
  cases m with
  | restore backupId => exact .inl ⟨_, rfl⟩
  | create kind body =>
      exact .inr ⟨_, applyMutation_create kind body, rfl, nofun, fun _ => ⟨kind, body, rfl⟩⟩
  | update kind id body =>
      refine .inr ⟨_, applyMutation_update kind id body, rfl, ?_, nofun⟩
      rintro _ ⟨⟩
      rfl
  | delete kind id =>
      refine .inr ⟨plainWrite kind .delete (some id) .empty none, rfl, rfl, ?_, nofun⟩
      rintro _ ⟨⟩
      rfl

/-- **Rolling one back** is refused or is one write. -/
theorem rollbackMutation_cases (priorValue : Option Json) (createdId : Option String)
    (m : StagedMutation) :
    (∃ e, c.rollbackMutation priorValue createdId m = throw e) ∨
      ∃ w : KindWrite Unit, c.rollbackMutation priorValue createdId m = c.write w ∧
        w.Undoes m createdId := by
  cases m with
  | restore backupId => exact .inl ⟨_, rfl⟩
  | create kind body =>
      cases createdId with
      | none => exact .inl ⟨_, rfl⟩
      | some id =>
          refine .inr ⟨plainWrite kind .delete (some id) .empty (), rfl, rfl, ?_, nofun⟩
          rintro _ ⟨⟩
          exact .inr ⟨⟨body, rfl⟩, rfl⟩
  | update kind id body =>
      cases priorValue with
      | none => exact .inl ⟨_, rfl⟩
      | some prior =>
          refine .inr ⟨plainWrite kind .put (some id) (.whole prior) (), rfl, rfl, ?_, nofun⟩
          rintro _ ⟨⟩
          exact .inl rfl
  | delete kind id =>
      cases priorValue with
      | none => exact .inl ⟨_, rfl⟩
      | some prior =>
          exact .inr ⟨plainWrite kind .post none (.whole prior) (), rfl, rfl, nofun, nofun⟩

/-- What holds of refusals and of the writes that apply a mutation holds of applying it. -/
theorem applyMutation_of {m : StagedMutation} (J : ClientM (Option String) → Prop)
    (hrefused : ∀ e, J (throw e))
    (hwrite : ∀ w : KindWrite (Option String), w.Applies m → J (c.write w)) :
    J (c.applyMutation m) := by
  rcases c.applyMutation_cases m with ⟨e, heq⟩ | ⟨w, heq, hw⟩
  · exact heq ▸ hrefused e
  · exact heq ▸ hwrite w hw

/-- And so for rolling one back. -/
theorem rollbackMutation_of {m : StagedMutation} {createdId : Option String}
    (J : ClientM Unit → Prop) (hrefused : ∀ e, J (throw e))
    (hwrite : ∀ w : KindWrite Unit, w.Undoes m createdId → J (c.write w))
    (priorValue : Option Json) : J (c.rollbackMutation priorValue createdId m) := by
  rcases c.rollbackMutation_cases priorValue createdId m with ⟨e, heq⟩ | ⟨w, heq, hw⟩
  · exact heq ▸ hrefused e
  · exact heq ▸ hwrite w hw

/-! ## What a write asks -/

theorem sendWrite_collection {w : KindWrite α} (h : w.id = none) (k : ResourceKind) (site : String)
    (body : Option Json) : c.sendWrite w k site body =
      c.request w.method k.surface k.pathTemplate [("site", site)] [] body := by
  rw [sendWrite, KindWrite.template, KindWrite.params, h]

theorem sendWrite_single {w : KindWrite α} {id : String} (h : w.id = some id) (k : ResourceKind)
    (site : String) (body : Option Json) : c.sendWrite w k site body =
      c.request w.method k.surface k.singleResourceTemplate [("site", site), ("id", id)] []
        body := by
  rw [sendWrite, KindWrite.template, KindWrite.params, h]

section Asks

variable {P : ClientOp → Prop}

/-- Go on with the kind that was read. -/
theorem asks_parseKind_bind {kind : String} {f : ResourceKind → ClientM α}
    (hf : ∀ k, ResourceKind.parse kind = .ok k → (f k).Asks P) : (parseKind kind >>= f).Asks P := by
  unfold parseKind
  cases hparse : ResourceKind.parse kind with
  | error e => exact Fallible.asks_throw _
  | ok k => exact hf k hparse

/-- Go on with the site that was found: off the Integration API it is the configured one. -/
theorem AsksReads.site_bind (h : c.AsksReads P) {surface : ApiSurface} {f : String → ClientM α}
    (hf : ∀ site, (surface ≠ .supported → site = c.controller.site) → (f site).Asks P) :
    (c.defaultSiteFor surface >>= f).Asks P := by
  by_cases hsurface : surface = .supported
  · exact (h.site surface).bind fun site => hf site fun hne => absurd hsurface hne
  · rw [defaultSiteFor_of_ne hsurface]
    exact hf _ fun _ => rfl

theorem AsksReads.writeBody (h : c.AsksReads P) (kind : String) (k : ResourceKind)
    (body : WriteBody) : (c.writeBody kind k body).Asks P := by
  cases body with
  | empty => exact Fallible.asks_pure _
  | whole value => exact Fallible.asks_pure _
  | merged id staged => exact (h.mergedBody _ kind id staged).bind fun _ => Fallible.asks_pure _

/-- **A write asks for reads and for its own request**, to a resource of its kind and, off the
Integration API, on the configured site. -/
theorem AsksReads.write (h : c.AsksReads P) {w : KindWrite α}
    (hsend : ∀ k site body, ResourceKind.parse w.kind = .ok k →
      (k.surface ≠ .supported → site = c.controller.site) → (c.sendWrite w k site body).Asks P) :
    (c.write w).Asks P := by
  refine asks_parseKind_bind fun k hparse => ?_
  refine (Fallible.asks_ofExcept _).bind fun _ => h.site_bind fun site hsite => ?_
  refine (h.writeBody w.kind k w.body).bind fun body => ?_
  exact (hsend k site body hparse hsite).bind fun _ => Fallible.asks_ofExcept _

end Asks

end UnifiClient

end UnifiMcp

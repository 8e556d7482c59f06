import UnifiMcp.Client.Runs
import UnifiMcp.Text.Query

/-!
# The query string of a request

`percentEncode` writes each byte of a text as an unreserved character or as a triplet, so the query
string of a request is one that `Text.parseQuery` reads back: no key and no value, whatever
characters are in it, ends early or adds a parameter of its own (`get_queryString`).
-/

namespace UnifiMcp

open Interaction Text

/-- What `percentEncode` writes for a byte. -/
def writtenByte (byte : UInt8) : List Char :=
  if isUnreserved byte then [Char.ofNat byte.toNat] else '%' :: (hexByte byte).toList

theorem toList_percentEncode (s : String) : (percentEncode s).toList = writeText writtenByte s := by
  have hbyte : ∀ byte : UInt8, (if isUnreserved byte then String.singleton (Char.ofNat byte.toNat)
      else "%" ++ hexByte byte).toList = writtenByte byte := by
    intro byte
    unfold writtenByte
    split_ifs
    · rw [String.toList_singleton]
    · rw [String.toList_append]
      rfl
  unfold percentEncode writeText
  rw [String.toList_join, List.flatMap_map]
  exact List.flatMap_congr fun byte _ => hbyte byte

/-- The sixteen digits are read back. -/
theorem hexValue_digit : ∀ n < 16, hexValue (Nat.digitChar n).toUpper = some n := by decide

theorem toList_hexByte (byte : UInt8) :
    (hexByte byte).toList =
      [(Nat.digitChar (byte.toNat / 16)).toUpper, (Nat.digitChar (byte.toNat % 16)).toUpper] := by
  unfold hexByte
  rw [String.toList_map, String.toList_ofList, List.map_cons, List.map_cons, List.map_nil]

/-- A byte that is left alone is its character. -/
theorem unreserved_of_isUnreserved {byte : UInt8} (h : isUnreserved byte = true) :
    unreserved (Char.ofNat byte.toNat) = true ∧ (Char.ofNat byte.toNat).toNat = byte.toNat := by
  unfold isUnreserved at h
  rw [Bool.and_eq_true] at h
  have hlt := byte.toNat_lt
  have hvalid : byte.toNat.isValidChar := .inl (by omega)
  refine ⟨h.2, ?_⟩
  unfold Char.ofNat
  rw [dif_pos hvalid]
  rfl

/-- **Every byte is written as an unreserved character or as a triplet.** -/
theorem writtenAs_writtenByte (byte : UInt8) : WrittenAs byte (writtenByte byte) := by
  unfold writtenByte
  split_ifs with h
  · exact .plain (unreserved_of_isUnreserved h).1 (unreserved_of_isUnreserved h).2
  · have hlt := byte.toNat_lt
    rw [toList_hexByte]
    exact .triplet (hexValue_digit _ (by omega)) (hexValue_digit _ (by omega))
      (Nat.div_add_mod byte.toNat 16)

/-- The query string of a request is written byte by byte. -/
theorem queryString_eq {query : List (String × String)} (hquery : query ≠ []) :
    queryString query = "?" ++ String.ofList (writeQuery writtenByte query) := by
  have hpart : ∀ e : String × String,
      (s!"{percentEncode e.1}={percentEncode e.2}").toList = writePart writtenByte e := by
    intro e
    unfold writePart
    rw [← toList_percentEncode, ← toList_percentEncode, String.toList_append, String.toList_append,
      List.append_assoc]
    rfl
  have htext : ("&".intercalate (query.map fun e =>
      s!"{percentEncode e.1}={percentEncode e.2}")).toList = writeQuery writtenByte query := by
    rw [String.toList_intercalate, List.map_map]
    exact congrArg (List.intercalate ['&']) (List.map_congr_left fun e _ => hpart e)
  unfold queryString
  rw [if_neg (by simpa using hquery), ← htext, String.ofList_toList]

namespace UnifiClient

variable {c : UnifiClient} {method : Method} {surface : ApiSurface} {template : String}
  {params query : List (String × String)} {body : Option Json}

/-- The first question of a request is to send it, with the query it was given. -/
theorem query_of_gives_request {t : List (Event ClientSig)} {r : Except UnifiError Json}
    {request : Request} (h : (c.request method surface template params query body).Gives t r)
    (hsent : t.head?.map Event.op = some (.send request)) : request.query = query := by
  have hfirst : ∀ {path : String} {answer : Except HttpError Response}
      {rest : List (Event ClientSig)},
      (sendEvent (requestOf c method template params query body path) answer :: rest).head?.map
        Event.op = some (.send request) → request.query = query := by
    intro path answer rest hop
    cases hop
    rfl
  cases requestRun_of_gives h with
  | notPermitted e _ => cases hsent
  | notExpanded message _ => cases hsent
  | transport path e => exact hfirst hsent
  | rejected path response _ rest e _ => exact hfirst hsent
  | landed path response _ _ _ => exact hfirst hsent

end UnifiClient

/-- **The query string of a GET is read back.**  Split at `&` and at the first `=` and decoded, the
text after the question mark gives the keys and values of the query again; it is made of unreserved
characters, triplets and separators; and it ends the URL that the GET is sent to. -/
theorem get_queryString (c : UnifiClient) (surface : ApiSurface) (template : String)
    (params : List (String × String)) {query : List (String × String)} (hquery : query ≠ []) :
    ∃ text, queryString query = "?" ++ text ∧ parseQuery text = some query ∧
      IsQuery text.toList ∧
      ∀ t r request, (c.get surface template params query).Gives t r →
        t.head?.map Event.op = some (.send request) →
          request.url = request.base ++ request.path ++ "?" ++ text := by
  refine ⟨_, queryString_eq hquery, parseQuery_writeQuery writtenAs_writtenByte hquery, ?_, ?_⟩
  · rw [String.toList_ofList]
    exact isQuery_writeQuery writtenAs_writtenByte query
  · intro t r request hgives hsent
    rw [Request.url, UnifiClient.query_of_gives_request hgives hsent, queryString_eq hquery,
      ← String.append_assoc]

/-- A client whose paths are expanded to themselves. -/
def filterClient : UnifiClient where
  controller :=
    ⟨"https://unifi.example", "default", some "UNIFI_API_KEY", none, none, false, false⟩
  expandPath template _ := .ok template

/-- A value with separators in it, and a parameter that is empty. -/
def filterQuery : List (String × String) := [("filter", "name=é&site=all"), ("", "")]

/-- The URL of a search by a value with separators in it. -/
theorem get_queryString_filter :
    ∃ text, parseQuery text = some filterQuery ∧ IsQuery text.toList ∧
      (UnifiClient.requestOf filterClient .get "/clients" [] filterQuery none "/clients").url =
        filterClient.baseUrl ++ "/clients" ++ "?" ++ text := by
  obtain ⟨text, -, hparse, hmade, hurl⟩ :=
    get_queryString filterClient .supported "/clients" [] (List.cons_ne_nil _ _ : filterQuery ≠ [])
  have hrun : (filterClient.get .supported "/clients" [] filterQuery).Gives
      [sendEvent (UnifiClient.requestOf filterClient .get "/clients" [] filterQuery none "/clients")
        (.ok ⟨200, "", .ok .null⟩)] (.ok .null) :=
    UnifiClient.gives_request_landed rfl rfl (show 200 < 300 by decide)
  exact ⟨text, hparse, hmade, hurl _ _ _ hrun rfl⟩

end UnifiMcp

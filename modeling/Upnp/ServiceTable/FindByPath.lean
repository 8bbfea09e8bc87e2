import Upnp.ServiceTable.GetServiceTable
import Upnp.Uri.ResolveRelUrl

/-!
# Looking up a service by its URL

`FindServiceEventURLPath` and `FindServiceControlURLPath` compare the path and query of a request
with those of the URLs in the table.  They take each value of `parse_uri` but zero for success,
and its errors are negative: so a URL that is not accepted is compared too, with what an earlier
one left in `parsed_url`, or with nothing at all.
-/

namespace Upnp.ServiceTable

open Upnp.Lib Upnp.Uri

def HTTP_SUCCESS : Int := 1

/-- The `pathquery` of a `uri_type`, with the string that it points into. -/
structure PathQuery where
  url : CString
  pathquery : Token

/-- The text of the path and query. -/
def PathQuery.text (p : PathQuery) : CString := p.pathquery.text (p.url ++ ['\x00'])

/-- `token_cmp`, when it finds no difference. -/
def tokensEqual (in1 in2 : PathQuery) : Bool :=
  in1.pathquery.size = in2.pathquery.size && in1.text = in2.text

/-- `parse_uri` on a string: its value, and what `out->pathquery` is behind the call; an error leaves
it as it was. -/
def parseInto (env : Env) (url : CString) (out : Option PathQuery) :
    Option (Int × Option PathQuery) :=
  (parseString env url).map fun
    | .ok u => (HTTP_SUCCESS, some ⟨url, u.pathquery⟩)
    | .error code => (code, out)

/-- What a look-up finds, and the services for which tokens were compared. -/
structure LookUp where
  found : Option Nat
  compared : List Nat

/-- The services are numbered from the head of the table; `env 0` is the system while the request
is parsed, and `env (i + 1)` while the URL of service `i` is. -/
abbrev Envs := Nat → Env

section Model

variable (env : Envs) (url : ServiceInfo → Option CString)

/-- The loop over the services from number `i` on; `none` is a comparison with a token that was
never written. -/
def lookUpLoop (parsed_url_in : Option PathQuery) :
    Option PathQuery → Nat → List ServiceInfo → Option LookUp
  | _, _, [] => some ⟨none, []⟩
  | parsed_url, i, finger :: next =>
    match url finger with
    | none => lookUpLoop parsed_url_in parsed_url (i + 1) next
    | some text => do
      let (value, parsed_url) ← parseInto (env (i + 1)) text parsed_url
      if value ≠ 0 then
        let in1 ← parsed_url
        let in2 ← parsed_url_in
        if tokensEqual in1 in2 then some ⟨some i, [i]⟩
        else
          let found ← lookUpLoop parsed_url_in parsed_url (i + 1) next
          some { found with compared := i :: found.compared }
      else lookUpLoop parsed_url_in parsed_url (i + 1) next

/-- The common part of the look-ups by URL. -/
def findServiceURLPath (table : Option (List ServiceInfo)) (URLPath : CString) : Option LookUp :=
  match table with
  | none => some ⟨none, []⟩
  | some serviceList => do
    let (value, parsed_url_in) ← parseInto (env 0) URLPath none
    if value ≠ 0 then lookUpLoop env url parsed_url_in none 0 serviceList else some ⟨none, []⟩

end Model

/-- `FindServiceEventURLPath`. -/
def findServiceEventURLPath (env : Envs) (table : Option (List ServiceInfo))
    (eventURLPath : CString) : Option LookUp :=
  findServiceURLPath env ServiceInfo.eventURL table eventURLPath

/-- `FindServiceControlURLPath`. -/
def findServiceControlURLPath (env : Envs) (table : Option (List ServiceInfo))
    (controlURLPath : CString) : Option LookUp :=
  findServiceURLPath env ServiceInfo.controlURL table controlURLPath

/-! ## What a look-up is for -/

/-- The path and query of a URI that `parse_uri` accepts. -/
def pathOf (env : Env) (url : CString) : Option CString :=
  match parseString env url with
  | some (.ok u) => some (u.pathquery.text (url ++ ['\x00']))
  | _ => none

section Purpose

variable (env : Envs) (url : ServiceInfo → Option CString)

/-- The path and query of service number `i`, if it has a URL and that is accepted. -/
def servicePath (i : Nat) (service : ServiceInfo) : Option CString :=
  (url service).bind (pathOf (env (i + 1)))

/-- The first service with the path and query `path`, from number `i` on. -/
def firstMatch (path : CString) : Nat → List ServiceInfo → Option Nat
  | _, [] => none
  | i, service :: next =>
    if servicePath env url i service = some path then some i else firstMatch path (i + 1) next

/-- The look-up gives the first service with the path and query of the request, if that is accepted,
and only accepted URLs are compared. -/
def FindsFirst (table : Option (List ServiceInfo)) (URLPath : CString) (r : Option LookUp) : Prop :=
  ∃ found, r = some found ∧
    found.found = (pathOf (env 0) URLPath).bind (firstMatch env url · 0 (table.getD [])) ∧
    ∀ i ∈ found.compared, ∃ service, (table.getD [])[i]? = some service ∧
      servicePath env url i service ≠ none

/-- From number `i` on, each URL up to the first match is accepted. -/
def AcceptedUpTo (path : CString) : Nat → List ServiceInfo → Prop
  | _, [] => True
  | i, service :: next =>
    servicePath env url i service = some path ∨
      (url service = none ∨ servicePath env url i service ≠ none) ∧
        AcceptedUpTo path (i + 1) next

/-- No service has a URL, or the request is accepted and so is each URL up to the first match. -/
def AllAccepted (table : List ServiceInfo) (URLPath : CString) : Prop :=
  (∀ service ∈ table, url service = none) ∨
    ∃ path, pathOf (env 0) URLPath = some path ∧ AcceptedUpTo env url path 0 table

end Purpose

/-! ## Tokens -/

variable {env : Envs} {url : ServiceInfo → Option CString} {table : List ServiceInfo} {i : Nat}

theorem parseString_isSome (e : Env) (text : CString) : (parseString e text).isSome := by
  apply parse_uri_isSome
  rw [List.drop_zero, List.length_append]
  exact Nat.le_add_right _ _

/-- An error of `parse_uri` is not zero. -/
theorem error_ne_zero {e : Env} {text : CString} {code : Int}
    (h : parseString e text = some (.error code)) : code ≠ 0 := by
  obtain ⟨size, -, h⟩ := Option.bind_eq_some_iff.mp h
  obtain ⟨host, hhost, h⟩ := Option.bind_eq_some_iff.mp h
  cases host with
  | ok host =>
    obtain ⟨r, -, h⟩ := Option.bind_eq_some_iff.mp h
    cases h
  | error code' =>
    cases h
    obtain ⟨found, -, h⟩ := Option.bind_eq_some_iff.mp hhost
    cases found with
    | false => cases h
    | true =>
      obtain ⟨n, -, h⟩ := Option.bind_eq_some_iff.mp h
      obtain ⟨port, -, h⟩ := Option.bind_eq_some_iff.mp h
      cases port with
      | none =>
        cases h
        decide
      | some port =>
        dsimp only at h
        split at h
        · split at h
          · cases h
          · cases h
            decide
        · cases h
          decide

/-- The two ways `parse_uri` goes, neither of which is zero. -/
theorem parseInto_cases (e : Env) (text : CString) (out : Option PathQuery) :
    (∃ u, parseInto e text out = some (HTTP_SUCCESS, some ⟨text, u⟩) ∧
        pathOf e text = some (PathQuery.text ⟨text, u⟩) ∧
        (PathQuery.text ⟨text, u⟩).length = u.size) ∨
      ∃ code : Int, code ≠ 0 ∧ parseInto e text out = some (code, out) ∧ pathOf e text = none := by
  obtain ⟨r, hr⟩ := Option.isSome_iff_exists.mp (parseString_isSome e text)
  rw [parseInto, pathOf, hr]
  cases r with
  | ok u =>
    refine .inl ⟨u.pathquery, rfl, rfl, ?_⟩
    have hslices := parse_uri_slices (Nat.zero_le _) hr
    have hlength := hslices.le_length
    rw [PathQuery.text, Token.text, hslices.pathquery]
    dsimp only
    rw [List.length_take, List.length_drop]
    rw [URI.extent] at hlength
    omega
  | error code => exact .inr ⟨code, error_ne_zero hr, rfl, rfl⟩

/-- Tokens that lie in their strings are equal when their texts are. -/
theorem tokensEqual_iff {p q : PathQuery} (hp : p.text.length = p.pathquery.size)
    (hq : q.text.length = q.pathquery.size) : tokensEqual p q = true ↔ p.text = q.text := by
  rw [tokensEqual, Bool.and_eq_true, decide_eq_true_eq, decide_eq_true_eq, ← hp, ← hq]
  exact ⟨fun h ↦ h.2, fun h ↦ ⟨congrArg List.length h, h⟩⟩

/-! ## The loop -/

variable {q : PathQuery}

theorem getElem?_of_drop {service : ServiceInfo} {next : List ServiceInfo}
    (h : table.drop i = service :: next) : table[i]? = some service := by
  rw [← List.head?_drop, h]
  rfl

theorem drop_succ_of_drop {service : ServiceInfo} {next : List ServiceInfo}
    (h : table.drop i = service :: next) : table.drop (i + 1) = next := by
  rw [← List.tail_drop, h]
  rfl

/-- While the URLs are accepted the loop finds the first match. -/
theorem lookUpLoop_accepted (hq : q.text.length = q.pathquery.size) {rest : List ServiceInfo}
    (hdrop : table.drop i = rest) (h : AcceptedUpTo env url q.text i rest)
    (parsed_url : Option PathQuery) :
    ∃ found, lookUpLoop env url (some q) parsed_url i rest = some found ∧
      found.found = firstMatch env url q.text i rest ∧
      ∀ k ∈ found.compared, ∃ service, table[k]? = some service ∧
        servicePath env url k service ≠ none := by
  induction rest generalizing i parsed_url with
  | nil =>
    refine ⟨⟨none, []⟩, rfl, rfl, ?_⟩
    rintro k hk
    cases hk
  | cons service next ih =>
    have hget := getElem?_of_drop hdrop
    have hnext := @ih (i + 1) (drop_succ_of_drop hdrop)
    rw [lookUpLoop, firstMatch]
    cases hurl : url service with
    | none =>
      have hpath : servicePath env url i service = none := by
        rw [servicePath, hurl]
        rfl
      rcases h with hmatch | ⟨-, hrest⟩
      · rw [hpath] at hmatch
        cases hmatch
      · rw [hpath, if_neg (Option.some_ne_none _).symm]
        exact hnext hrest parsed_url
    | some text =>
      have hpath : servicePath env url i service = pathOf (env (i + 1)) text := by
        rw [servicePath, hurl]
        rfl
      rcases parseInto_cases (env (i + 1)) text parsed_url with
        ⟨u, hparse, hu, hsize⟩ | ⟨code, hcode, hparse, hu⟩
      · have hsome : servicePath env url i service ≠ none := by
          rw [hpath, hu]
          exact Option.some_ne_none _
        have hequal := @tokensEqual_iff ⟨text, u⟩ q hsize hq
        rw [hpath, hu]
        simp only [hparse, Option.bind_eq_bind, Option.bind_some]
        rw [if_pos (by decide)]
        by_cases heq : PathQuery.text ⟨text, u⟩ = q.text
        · rw [if_pos (hequal.mpr heq), if_pos (congrArg some heq)]
          refine ⟨_, rfl, rfl, ?_⟩
          rintro k hk
          cases List.mem_singleton.mp hk
          exact ⟨service, hget, hsome⟩
        · rw [if_neg (mt hequal.mp heq), if_neg (mt Option.some_inj.mp heq)]
          have hrest : AcceptedUpTo env url q.text (i + 1) next := by
            rcases h with hmatch | ⟨-, hrest⟩
            · rw [hpath, hu] at hmatch
              exact absurd (Option.some_inj.mp hmatch) heq
            · exact hrest
          obtain ⟨found, hfound, hfirst, hcompared⟩ := hnext hrest (some ⟨text, u⟩)
          rw [hfound]
          refine ⟨_, rfl, hfirst, ?_⟩
          rintro k hk
          rcases List.mem_cons.mp hk with rfl | hk
          · exact ⟨service, hget, hsome⟩
          · exact hcompared k hk
      · rcases h with hmatch | ⟨hnone | hsome, -⟩
        · rw [hpath, hu] at hmatch
          cases hmatch
        · rw [hurl] at hnone
          cases hnone
        · rw [hpath, hu] at hsome
          exact absurd rfl hsome

/-- A URL that is not accepted is compared, or something that was never written is. -/
theorem lookUpLoop_compares (hq : q.text.length = q.pathquery.size) {rest : List ServiceInfo}
    (hdrop : table.drop i = rest) (h : ¬ AcceptedUpTo env url q.text i rest)
    (parsed_url : Option PathQuery) {found : LookUp}
    (hfound : lookUpLoop env url (some q) parsed_url i rest = some found) :
    ∃ k ∈ found.compared, ∀ service, table[k]? = some service →
      servicePath env url k service = none := by
  induction rest generalizing i parsed_url found with
  | nil => exact absurd trivial h
  | cons service next ih =>
    have hget := getElem?_of_drop hdrop
    have hnext := @ih (i + 1) (drop_succ_of_drop hdrop)
    rw [AcceptedUpTo, not_or] at h
    obtain ⟨hmatch, hrest⟩ := h
    rw [lookUpLoop] at hfound
    cases hurl : url service with
    | none =>
      rw [hurl] at hfound
      refine hnext (fun haccepted ↦ hrest ⟨.inl hurl, haccepted⟩) parsed_url hfound
    | some text =>
      have hpath : servicePath env url i service = pathOf (env (i + 1)) text := by
        rw [servicePath, hurl]
        rfl
      rw [hurl] at hfound
      rcases parseInto_cases (env (i + 1)) text parsed_url with
        ⟨u, hparse, hu, hsize⟩ | ⟨code, hcode, hparse, hu⟩
      · have hequal := @tokensEqual_iff ⟨text, u⟩ q hsize hq
        rw [hpath, hu] at hmatch hrest
        simp only [hparse, Option.bind_eq_bind, Option.bind_some] at hfound
        rw [if_pos (by decide), if_neg (mt hequal.mp (mt (congrArg some) hmatch))] at hfound
        obtain ⟨found', hfound', heq⟩ := Option.bind_eq_some_iff.mp hfound
        cases heq
        obtain ⟨k, hk, hnone⟩ := hnext
          (fun haccepted ↦ hrest ⟨.inr (Option.some_ne_none _), haccepted⟩) _ hfound'
        exact ⟨k, List.mem_cons_of_mem _ hk, hnone⟩
      · simp only [hparse, Option.bind_eq_bind, Option.bind_some] at hfound
        rw [if_pos hcode] at hfound
        obtain ⟨in1, -, hfound⟩ := Option.bind_eq_some_iff.mp hfound
        have hmem : i ∈ found.compared := by
          split at hfound
          · cases hfound
            exact List.mem_cons_self
          · obtain ⟨found', -, heq⟩ := Option.bind_eq_some_iff.mp hfound
            cases heq
            exact List.mem_cons_self
        refine ⟨i, hmem, ?_⟩
        rintro service' hservice'
        cases hget.symm.trans hservice'
        rw [hpath, hu]

/-- A request that is not accepted has no token to compare with. -/
theorem lookUpLoop_refused (parsed_url : Option PathQuery) :
    lookUpLoop env url none parsed_url i table = none ∨ ∀ service ∈ table, url service = none := by
  induction table generalizing i parsed_url with
  | nil =>
    right
    rintro service hmem
    cases hmem
  | cons service next ih =>
    cases hurl : url service with
    | none =>
      rcases @ih (i + 1) parsed_url with h | h
      · left
        rw [lookUpLoop, hurl]
        exact h
      · right
        rintro service' hmem
        rcases List.mem_cons.mp hmem with rfl | hmem
        · exact hurl
        · exact h service' hmem
    | some text =>
      left
      rw [lookUpLoop, hurl]
      dsimp only
      rcases parseInto_cases (env (i + 1)) text parsed_url with
        ⟨u, hparse, -⟩ | ⟨code, hcode, hparse, -⟩
      · rw [hparse]
        rfl
      · simp only [hparse, Option.bind_eq_bind, Option.bind_some]
        rw [if_pos hcode]
        cases parsed_url with
        | none => rfl
        | some p => rfl

theorem lookUpLoop_without_urls (h : ∀ service ∈ table, url service = none)
    (parsed_url_in parsed_url : Option PathQuery) :
    lookUpLoop env url parsed_url_in parsed_url i table = some ⟨none, []⟩ := by
  induction table generalizing i with
  | nil => rfl
  | cons service next ih =>
    rw [lookUpLoop, h service List.mem_cons_self]
    exact ih fun service hmem ↦ h service (List.mem_cons_of_mem _ hmem)

theorem firstMatch_without_urls (h : ∀ service ∈ table, url service = none) (path : CString) :
    firstMatch env url path i table = none := by
  induction table generalizing i with
  | nil => rfl
  | cons service next ih =>
    have hpath : servicePath env url i service = none := by
      rw [servicePath, h service List.mem_cons_self]
      rfl
    rw [firstMatch, hpath, if_neg (Option.some_ne_none _).symm]
    exact ih fun service hmem ↦ h service (List.mem_cons_of_mem _ hmem)

/-- A look-up by URL does what it is for if and only if all that it compares is accepted. -/
theorem findServiceURLPath_finds_iff (env : Envs) (url : ServiceInfo → Option CString)
    (table : Option (List ServiceInfo)) (URLPath : CString) :
    FindsFirst env url table URLPath (findServiceURLPath env url table URLPath) ↔
      AllAccepted env url (table.getD []) URLPath := by
  cases table with
  | none =>
    refine iff_of_true ⟨_, rfl, ?_, ?_⟩ (.inl ?_)
    · cases pathOf (env 0) URLPath <;> rfl
    · rintro i hi
      cases hi
    · rintro service hmem
      cases hmem
  | some serviceList =>
    rw [Option.getD_some]
    by_cases hurls : ∀ service ∈ serviceList, url service = none
    · refine iff_of_true ⟨⟨none, []⟩, ?_, ?_, ?_⟩ (.inl hurls)
      · rw [findServiceURLPath]
        rcases parseInto_cases (env 0) URLPath none with ⟨u, hparse, -⟩ | ⟨code, hcode, hparse, -⟩
        · simp only [hparse, Option.bind_eq_bind, Option.bind_some,
            lookUpLoop_without_urls hurls, ite_self]
        · simp only [hparse, Option.bind_eq_bind, Option.bind_some,
            lookUpLoop_without_urls hurls, ite_self]
      · cases pathOf (env 0) URLPath with
        | none => rfl
        | some path => exact (firstMatch_without_urls hurls path).symm
      · rintro i hi
        cases hi
    · have hcond : AllAccepted env url serviceList URLPath ↔
          ∃ path, pathOf (env 0) URLPath = some path ∧ AcceptedUpTo env url path 0 serviceList :=
        or_iff_right hurls
      rw [hcond, FindsFirst, findServiceURLPath]
      rcases parseInto_cases (env 0) URLPath none with
        ⟨u, hparse, hu, hsize⟩ | ⟨code, hcode, hparse, hu⟩
      · simp only [hparse, Option.bind_eq_bind, Option.bind_some, hu, Option.some_inj,
          exists_eq_left', Option.getD_some]
        rw [if_pos (by decide)]
        constructor
        · rintro ⟨found, hfound, -, hcompared⟩
          by_contra hnot
          obtain ⟨k, hk, hnone⟩ := lookUpLoop_compares hsize rfl hnot none hfound
          obtain ⟨service, hservice, hsome⟩ := hcompared k hk
          exact hsome (hnone service hservice)
        · intro haccepted
          exact lookUpLoop_accepted hsize rfl haccepted none
      · rw [hu]
        refine iff_of_false ?_ ?_
        · rintro ⟨found, hfound, -⟩
          simp only [hparse, Option.bind_eq_bind, Option.bind_some, if_pos hcode] at hfound
          rcases @lookUpLoop_refused env url serviceList 0 none with h | h
          · rw [h] at hfound
            cases hfound
          · exact hurls h
        · rintro ⟨path, hpath, -⟩
          cases hpath

/-- Both look-ups do what they are for. -/
def BothFind (env : Envs) (table : Option (List ServiceInfo)) (URLPath : CString) : Prop :=
  FindsFirst env ServiceInfo.eventURL table URLPath (findServiceEventURLPath env table URLPath) ∧
    FindsFirst env ServiceInfo.controlURL table URLPath
      (findServiceControlURLPath env table URLPath)

theorem bothFind_iff (env : Envs) (table : Option (List ServiceInfo)) (URLPath : CString) :
    BothFind env table URLPath ↔
      AllAccepted env ServiceInfo.eventURL (table.getD []) URLPath ∧
        AllAccepted env ServiceInfo.controlURL (table.getD []) URLPath :=
  and_congr (findServiceURLPath_finds_iff env _ table URLPath)
    (findServiceURLPath_finds_iff env _ table URLPath)

/-- A service whose host is not found. -/
def unknownHost : ServiceInfo where
  serviceType := none
  serviceId := none
  SCPDURL := none
  controlURL := none
  eventURL := some "http://h/e".toList
  UDN := none
  active := true

/-- The URL of the only service is not accepted, and nothing was written before. -/
theorem unknownHost_compared :
    ¬ BothFind (fun _ ↦ ⟨true, fun _ ↦ none⟩) (some [unknownHost]) "/e".toList := by
  rintro ⟨⟨found, hfound, -⟩, -⟩
  have hnone : (findServiceEventURLPath (fun _ ↦ ⟨true, fun _ ↦ none⟩) (some [unknownHost])
      "/e".toList).isNone = true := by
    decide +kernel
  rw [hfound] at hnone
  cases hnone

end Upnp.ServiceTable

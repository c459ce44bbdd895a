import Mathlib.Data.List.Perm.Basic
import Mathlib.Tactic.Common

/-!
# Route tables and the endpoints they declare

A block lists its HTTP surface once, as a table of rows. A request is dispatched to the first row
that matches it, while the router asks the endpoints declared from the same table for the strictest
level among those that match.

## Main definitions

* `Routing.matchTemplate`: a path template against a path.
* `Routing.dispatch`: the row that serves a request.
* `Routing.declare`: the endpoints that a table declares.
* `Routing.endpointAuth`: the strictest level that is declared for a request.

## Main results

* `Routing.strictest_endpointAuth`: the level is the strictest of the endpoints that match.
* `Routing.endpointAuth_declare_of_dispatch`: it is never below the row that a request is
  dispatched to.
-/

namespace Routing

/-- A path, a template or a prefix, as it appears on the wire. -/
abbrev Text := List Char

inductive HttpMethod
  | get
  | post
  | patch
  | delete
  deriving DecidableEq

/-- The level that an endpoint declares; `anyone` is what the source calls public. -/
inductive AuthLevel
  | anyone
  | authenticated
  | admin
  deriving DecidableEq

def authRank : AuthLevel → ℕ
  | .anyone => 0
  | .authenticated => 1
  | .admin => 2

def actionForMethod : HttpMethod → String
  | .get => "retrieve"
  | .post => "create"
  | .patch => "update"
  | .delete => "delete"

/-! ## Templates -/

def segments (path : Text) : List Text := path.splitOn '/'

/-- The name of a segment `{name...}`. -/
def restName (segment : Text) : Option Text :=
  (segment.dropSuffix? ['.', '.', '.', '}']).bind fun rest => rest.dropPrefix? ['{']

/-- The name of a segment `{name}`. -/
def variableName (segment : Text) : Option Text :=
  (segment.dropSuffix? ['}']).bind fun rest => rest.dropPrefix? ['{']

/-- What the rest of a path binds: all of it, or for a folder what stands before its last slash. -/
def boundRest (folder : Bool) (rest : Text) : Option Text :=
  let joined := if folder then rest.dropSuffix? ['/'] else some rest
  joined.filter fun value => !value.isEmpty

/-- The segments of a template against those of a path. -/
def matchSegments : List Text → List Text → Option (List (Text × Text))
  | [], [] => some []
  | [], _ :: _ => none
  | t :: ts, ps =>
    match restName t with
    | some name =>
      -- the last segment, or the last before a trailing slash
      if ts ≠ [] ∧ ts ≠ [[]] then none
      else if ps.isEmpty then none
      else (boundRest (ts = [[]]) (['/'].intercalate ps)).map fun value => [(name, value)]
    | none =>
      match ps with
      | [] => none
      | p :: ps =>
        match variableName t with
        | some name =>
          if p.isEmpty then none else (matchSegments ts ps).map fun params => (name, p) :: params
        | none => if t = p then matchSegments ts ps else none

/-- Match `path` against `template`; the answer is what the variables of the template are bound
to. -/
def matchTemplate (template path : Text) : Option (List (Text × Text)) :=
  matchSegments (segments template) (segments path)

example : matchTemplate "/b/x/{name}/{rest...}/".toList "/b/x/y/z/w/".toList =
    some [("name".toList, "y".toList), ("rest".toList, "z/w".toList)] := by decide

/-! ## Tables and endpoints -/

/-- What a row says of itself to the projections that publish it. -/
structure Documentation where
  summary : String
  description : String
  input : Option String
  output : Option String
  pathParams : Option String
  queryParams : Option String
  tags : List String
  deprecated : Bool
  agentTool : Option (String × String)
  serverOnly : Bool
  deriving DecidableEq

/-- What a row says before anything was added to it. -/
def Documentation.empty : Documentation := ⟨"", "", none, none, none, none, [], false, none, false⟩

/-- One row of the route table of a block. -/
structure EndpointRoute (H : Type) where
  method : HttpMethod
  template : Text
  handler : H
  auth : AuthLevel
  documentation : Documentation

/-- An endpoint that a block declares. -/
structure BlockEndpoint where
  method : HttpMethod
  path : Text
  auth : AuthLevel
  documentation : Documentation
  deriving DecidableEq

/-- The endpoint that a row declares. -/
def EndpointRoute.endpoint {H : Type} (row : EndpointRoute H) : BlockEndpoint :=
  ⟨row.method, row.template, row.auth, row.documentation⟩

/-- The endpoints that a table declares, in table order. -/
def declare {H : Type} (table : List (EndpointRoute H)) : List BlockEndpoint :=
  table.map EndpointRoute.endpoint

def endsWithSlash (path : Text) : Bool := path.getLast? = some '/'

/-- The path, and then, where it has none, the path with a trailing slash. -/
def candidates (path : Text) : List Text :=
  path :: if endsWithSlash path then [] else [path ++ ['/']]

/-- The endpoint answers the action at exactly this path. -/
def BlockEndpoint.answers (ep : BlockEndpoint) (action : String) (path : Text) : Bool :=
  actionForMethod ep.method = action && (matchTemplate ep.path path).isSome

section Dispatch

variable {H : Type}

/-- The first row that matches exactly, with what its variables are bound to. -/
def matchingRow (table : List (EndpointRoute H)) (action : String) (path : Text) :
    Option (EndpointRoute H × List (Text × Text)) :=
  table.findSome? fun row =>
    if actionForMethod row.method ≠ action then none
    else (matchTemplate row.template path).map fun params => (row, params)

/-- The row that a request selects: an exact match first, and then one with a trailing slash. -/
def selectedRow (table : List (EndpointRoute H)) (action : String) (path : Text) :
    Option (EndpointRoute H × List (Text × Text)) :=
  (candidates path).findSome? (matchingRow table action)

/-- The handler of the row that a request selects, and what its variables are bound to. -/
def dispatch (table : List (EndpointRoute H)) (action : String) (path : Text) :
    Option (H × List (Text × Text)) :=
  (selectedRow table action path).map fun selected => (selected.1.handler, selected.2)

end Dispatch

/-- The stricter of what was found so far and a level. -/
def stricter (strictest : Option AuthLevel) (level : AuthLevel) : AuthLevel :=
  match strictest with
  | some current => if authRank level ≤ authRank current then current else level
  | none => level

/-- The strictest level among the endpoints that match exactly. -/
def endpointAuthExact (endpoints : List BlockEndpoint) (action : String) (path : Text) :
    Option AuthLevel :=
  endpoints.foldl
    (fun strictest ep => if ep.answers action path then some (stricter strictest ep.auth)
      else strictest) none

/-- The strictest level that is declared for a request. -/
def endpointAuth (endpoints : List BlockEndpoint) (action : String) (path : Text) :
    Option AuthLevel :=
  match endpointAuthExact endpoints action path with
  | some level => some level
  | none =>
    if endsWithSlash path then none else endpointAuthExact endpoints action (path ++ ['/'])

/-! ## The strictest level -/

theorem authRank_injective {a b : AuthLevel} (h : authRank a = authRank b) : a = b := by
  cases a <;> cases b <;> first | rfl | cases h

/-- The endpoint is among those that decide a request: it matches exactly, or nothing does and it
matches with a trailing slash. -/
structure Decides (endpoints : List BlockEndpoint) (action : String) (path : Text)
    (ep : BlockEndpoint) : Prop where
  mem : ep ∈ endpoints
  answers : ep.answers action path ∨
    (∀ other ∈ endpoints, other.answers action path = false) ∧ endsWithSlash path = false ∧
      ep.answers action (path ++ ['/'])

/-- The level is that of one of the endpoints, and none of them has a stricter one. -/
structure Strictest (deciding : BlockEndpoint → Prop) (level : AuthLevel) : Prop where
  attained : ∃ ep, deciding ep ∧ ep.auth = level
  bound : ∀ ep, deciding ep → authRank ep.auth ≤ authRank level

theorem Strictest.unique {deciding deciding' : BlockEndpoint → Prop} {level level' : AuthLevel}
    (h : Strictest deciding level) (h' : Strictest deciding' level')
    (hsame : ∀ ep, deciding ep ↔ deciding' ep) : level = level' := by
  obtain ⟨ep, hep, hlevel⟩ := h.attained
  obtain ⟨ep', hep', hlevel'⟩ := h'.attained
  refine authRank_injective (Nat.le_antisymm ?_ ?_)
  · rw [← hlevel]
    exact h'.bound ep ((hsame ep).mp hep)
  · rw [← hlevel']
    exact h.bound ep' ((hsame ep').mpr hep')

section Exact

variable {endpoints : List BlockEndpoint} {action : String} {path : Text}

/-- The endpoints that were looked at, and the strictest level found among them. -/
private theorem foldl_strictest (action : String) (path : Text) (looked rest : List BlockEndpoint) (strictest : Option AuthLevel)
    (hnone : strictest = none → ∀ ep ∈ looked, ep.answers action path = false)
    (hsome : ∀ level, strictest = some level →
      Strictest (fun ep => ep ∈ looked ∧ ep.answers action path) level) :
    let result := rest.foldl (fun strictest ep => if ep.answers action path then
      some (stricter strictest ep.auth) else strictest) strictest
    (result = none → ∀ ep ∈ looked ++ rest, ep.answers action path = false) ∧
      ∀ level, result = some level →
        Strictest (fun ep => ep ∈ looked ++ rest ∧ ep.answers action path) level := by
  induction rest generalizing looked strictest with
  | nil => simpa using ⟨hnone, hsome⟩
  | cons ep rest ih =>
    rw [List.foldl_cons, List.append_cons looked ep rest]
    by_cases hep : ep.answers action path = true
    · rw [if_pos hep]
      refine ih (looked ++ [ep]) _ nofun fun level hlevel => ?_
      obtain rfl : stricter strictest ep.auth = level := Option.some.inj hlevel
      cases strictest with
      | none =>
        refine ⟨⟨ep, ⟨by simp, hep⟩, rfl⟩, ?_⟩
        rintro other ⟨hother, hanswers⟩
        rcases List.mem_append.mp hother with hlooked | hlast
        · rw [hnone rfl other hlooked] at hanswers
          cases hanswers
        · rw [List.mem_singleton.mp hlast]
          exact Nat.le_refl _
      | some current =>
        obtain ⟨⟨held, hheld, hcurrent⟩, hbound⟩ := hsome current rfl
        have hbound' : ∀ other, (other ∈ looked ++ [ep] ∧ other.answers action path = true) →
            authRank other.auth ≤ authRank current ∨ authRank other.auth = authRank ep.auth := by
          rintro other ⟨hother, hanswers⟩
          rcases List.mem_append.mp hother with hlooked | hlast
          · exact .inl (hbound other ⟨hlooked, hanswers⟩)
          · rw [List.mem_singleton.mp hlast]
            exact .inr rfl
        simp only [stricter]
        split
        · rename_i hle
          exact ⟨⟨held, ⟨List.mem_append_left _ hheld.1, hheld.2⟩, hcurrent⟩,
            fun other hother => (hbound' other hother).elim id fun h => h ▸ hle⟩
        · rename_i hlt
          refine ⟨⟨ep, ⟨by simp, hep⟩, rfl⟩, fun other hother => ?_⟩
          rcases hbound' other hother with h | h
          · omega
          · omega
    · rw [if_neg hep]
      have hskip : ∀ other, (other ∈ looked ++ [ep] ∧ other.answers action path = true) ↔
          (other ∈ looked ∧ other.answers action path = true) := by
        intro other
        rw [List.mem_append, List.mem_singleton, or_and_right]
        exact or_iff_left fun h => hep (h.1 ▸ h.2)
      refine ih (looked ++ [ep]) strictest (fun h other hother => ?_) fun level hlevel => ?_
      · rcases List.mem_append.mp hother with hlooked | hlast
        · exact hnone h other hlooked
        · rw [List.mem_singleton.mp hlast]
          simpa using hep
      · simpa only [hskip] using hsome level hlevel

theorem endpointAuthExact_eq_none_iff :
    endpointAuthExact endpoints action path = none ↔
      ∀ ep ∈ endpoints, ep.answers action path = false := by
  obtain ⟨hnone, hsome⟩ := foldl_strictest action path [] endpoints none
    (fun _ _ h => absurd h List.not_mem_nil) nofun
  refine ⟨hnone, fun hall => ?_⟩
  by_contra hlevel
  obtain ⟨level, hlevel⟩ := Option.ne_none_iff_exists'.mp hlevel
  obtain ⟨ep, ⟨hmem, hanswers⟩, -⟩ := (hsome level hlevel).attained
  rw [hall ep hmem] at hanswers
  cases hanswers

theorem strictest_endpointAuthExact {level : AuthLevel}
    (h : endpointAuthExact endpoints action path = some level) :
    Strictest (fun ep => ep ∈ endpoints ∧ ep.answers action path) level :=
  (foldl_strictest action path [] endpoints none (fun _ _ h => absurd h List.not_mem_nil) nofun).2 level h

/-- The level that is declared for a request is the strictest of those that decide it. -/
theorem strictest_endpointAuth {level : AuthLevel}
    (h : endpointAuth endpoints action path = some level) :
    Strictest (Decides endpoints action path) level := by
  unfold endpointAuth at h
  cases hexact : endpointAuthExact endpoints action path with
  | some exact =>
    rw [hexact] at h
    cases h
    have hstrictest := strictest_endpointAuthExact hexact
    obtain ⟨ep, ⟨hmem, hanswers⟩, hauth⟩ := hstrictest.attained
    refine ⟨⟨ep, ⟨hmem, .inl hanswers⟩, hauth⟩, fun other hother => ?_⟩
    rcases hother.answers with hother' | ⟨hall, -⟩
    · exact hstrictest.bound other ⟨hother.mem, hother'⟩
    · rw [hall ep hmem] at hanswers
      cases hanswers
  | none =>
    rw [hexact] at h
    dsimp only at h
    split at h
    · cases h
    · rename_i hslash
      have hall := endpointAuthExact_eq_none_iff.mp hexact
      have hstrictest := strictest_endpointAuthExact h
      obtain ⟨ep, ⟨hmem, hanswers⟩, hauth⟩ := hstrictest.attained
      refine ⟨⟨ep, ⟨hmem, .inr ⟨hall, by simpa using hslash, hanswers⟩⟩, hauth⟩,
        fun other hother => ?_⟩
      rcases hother.answers with hother' | ⟨-, -, hother'⟩
      · rw [hall other hother.mem] at hother'
        cases hother'
      · exact hstrictest.bound other ⟨hother.mem, hother'⟩

theorem endpointAuth_eq_none_iff :
    endpointAuth endpoints action path = none ↔
      ∀ candidate ∈ candidates path, ∀ ep ∈ endpoints, ep.answers action candidate = false := by
  unfold endpointAuth candidates
  cases hexact : endpointAuthExact endpoints action path with
  | some level =>
    obtain ⟨ep, ⟨hmem, hanswers⟩, -⟩ := (strictest_endpointAuthExact hexact).attained
    refine iff_of_false nofun fun hall => ?_
    rw [hall path List.mem_cons_self ep hmem] at hanswers
    cases hanswers
  | none =>
    have hall := endpointAuthExact_eq_none_iff.mp hexact
    dsimp only
    split
    · simpa using hall
    · rw [endpointAuthExact_eq_none_iff]
      simp only [List.mem_cons, List.not_mem_nil, or_false, forall_eq_or_imp, forall_eq]
      exact (and_iff_right hall).symm

/-- Whatever decides a request has a level that is declared for it. -/
theorem Decides.le_endpointAuth {ep : BlockEndpoint} (h : Decides endpoints action path ep) :
    ∃ level, endpointAuth endpoints action path = some level ∧
      authRank ep.auth ≤ authRank level := by
  cases hlevel : endpointAuth endpoints action path with
  | some level => exact ⟨level, rfl, (strictest_endpointAuth hlevel).bound ep h⟩
  | none =>
    have hall := endpointAuth_eq_none_iff.mp hlevel
    rcases h.answers with hanswers | ⟨-, hslash, hanswers⟩
    · rw [hall path List.mem_cons_self ep h.mem] at hanswers
      cases hanswers
    · rw [hall (path ++ ['/']) (by simp [candidates, hslash]) ep h.mem] at hanswers
      cases hanswers

/-- The order of the endpoints does not matter. -/
theorem endpointAuth_perm {endpoints' : List BlockEndpoint} (h : endpoints.Perm endpoints')
    (action : String) (path : Text) :
    endpointAuth endpoints action path = endpointAuth endpoints' action path := by
  have hnone : endpointAuth endpoints action path = none ↔
      endpointAuth endpoints' action path = none := by
    simp only [endpointAuth_eq_none_iff, h.mem_iff]
  have hsame : ∀ ep, Decides endpoints action path ep ↔ Decides endpoints' action path ep :=
    fun ep => ⟨fun hep => ⟨h.mem_iff.mp hep.mem, by simpa only [h.mem_iff] using hep.answers⟩,
      fun hep => ⟨h.mem_iff.mpr hep.mem, by simpa only [h.mem_iff] using hep.answers⟩⟩
  cases hlevel : endpointAuth endpoints action path with
  | none => exact (hnone.mp hlevel).symm
  | some level =>
    cases hlevel' : endpointAuth endpoints' action path with
    | none => rw [hnone.mpr hlevel'] at hlevel; cases hlevel
    | some level' =>
      rw [(strictest_endpointAuth hlevel).unique (strictest_endpointAuth hlevel') hsame]

end Exact

/-! ## Dispatching -/

section Dispatch

variable {H : Type} {table : List (EndpointRoute H)} {action : String} {path : Text}

theorem matchingRow_eq_none_iff :
    matchingRow table action path = none ↔
      ∀ ep ∈ declare table, ep.answers action path = false := by
  unfold matchingRow declare BlockEndpoint.answers EndpointRoute.endpoint
  rw [List.findSome?_eq_none_iff, List.forall_mem_map]
  refine forall_congr' fun row => imp_congr_right fun _ => ?_
  by_cases hmethod : actionForMethod row.method = action
  · simp [hmethod]
  · simp [hmethod]

theorem mem_of_matchingRow {row : EndpointRoute H} {params : List (Text × Text)}
    (h : matchingRow table action path = some (row, params)) :
    row ∈ table ∧ row.endpoint.answers action path = true := by
  obtain ⟨row', hmem, hrow⟩ := List.exists_of_findSome?_eq_some h
  split at hrow
  · cases hrow
  · rename_i hmethod
    obtain ⟨params', hparams, heq⟩ := Option.map_eq_some_iff.mp hrow
    cases heq
    refine ⟨hmem, ?_⟩
    simp [BlockEndpoint.answers, EndpointRoute.endpoint, not_not.mp hmethod, hparams]

/-- The row that a request selects is among the endpoints that decide it. -/
theorem decides_of_selectedRow {row : EndpointRoute H} {params : List (Text × Text)}
    (h : selectedRow table action path = some (row, params)) :
    Decides (declare table) action path row.endpoint := by
  unfold selectedRow candidates at h
  rw [List.findSome?_cons] at h
  cases hexact : matchingRow table action path with
  | some selected =>
    rw [hexact] at h
    cases h
    obtain ⟨hmem, hanswers⟩ := mem_of_matchingRow hexact
    exact ⟨List.mem_map_of_mem hmem, .inl hanswers⟩
  | none =>
    rw [hexact] at h
    dsimp only at h
    split at h
    · cases h
    · rename_i hslash
      rw [List.findSome?_cons, List.findSome?_nil] at h
      cases hretry : matchingRow table action (path ++ ['/']) with
      | none =>
        rw [hretry] at h
        cases h
      | some selected =>
        rw [hretry] at h
        cases h
        obtain ⟨hmem, hanswers⟩ := mem_of_matchingRow hretry
        exact ⟨List.mem_map_of_mem hmem, .inr ⟨matchingRow_eq_none_iff.mp hexact,
          by simpa using hslash, hanswers⟩⟩

/-- The level that is declared for a request is not below that of the row it is dispatched to. -/
theorem endpointAuth_declare_of_dispatch {row : EndpointRoute H} {params : List (Text × Text)}
    (h : selectedRow table action path = some (row, params)) :
    ∃ level, endpointAuth (declare table) action path = some level ∧
      authRank row.auth ≤ authRank level :=
  (decides_of_selectedRow h).le_endpointAuth

theorem selectedRow_eq_none_iff :
    selectedRow table action path = none ↔
      endpointAuth (declare table) action path = none := by
  unfold selectedRow
  rw [endpointAuth_eq_none_iff, List.findSome?_eq_none_iff]
  exact forall_congr' fun candidate => imp_congr_right fun _ => matchingRow_eq_none_iff

end Dispatch

end Routing

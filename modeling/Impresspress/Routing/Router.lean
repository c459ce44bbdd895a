import Impresspress.Routing.EndpointMatch

/-!
# The router

A request belongs to the first route whose prefix covers its path: a built-in one, or else one that
the deployment added. The route has an access tier of its own, and what the block declares for the
request can only make it stricter.

## Main definitions

* `Routing.routes`: the built-in routes.
* `Routing.routeToBlock`: where a request goes, or why it is refused.
* `Routing.effectiveAccess`: the tier that is shown for an endpoint.

## Main results

* `Routing.gate_not_weaker`: a caller that is let through satisfies the row that serves it.
-/

namespace Routing

/-- Access tier of a route; `anyone` is what the source calls public. -/
inductive RouteAccess
  | anyone
  | authenticated
  | admin
  deriving DecidableEq

namespace RouteAccess

def rank : RouteAccess → ℕ
  | anyone => 0
  | authenticated => 1
  | admin => 2

def fromAuthLevel : AuthLevel → RouteAccess
  | .anyone => anyone
  | .authenticated => authenticated
  | .admin => admin

/-- The stricter of two tiers. -/
def max (a b : RouteAccess) : RouteAccess := if a.rank ≤ b.rank then b else a

theorem rank_injective {a b : RouteAccess} (h : a.rank = b.rank) : a = b := by
  cases a <;> cases b <;> first | rfl | cases h

theorem rank_max (a b : RouteAccess) : (a.max b).rank = Nat.max a.rank b.rank := by
  unfold max
  split
  · exact (Nat.max_eq_right ‹_›).symm
  · exact (Nat.max_eq_left (by omega)).symm

@[simp] theorem rank_fromAuthLevel (level : AuthLevel) :
    (fromAuthLevel level).rank = authRank level := by
  cases level <;> rfl

theorem rank_le (a : RouteAccess) : a.rank ≤ admin.rank := by
  cases a <;> decide

end RouteAccess

/-- A built-in route. `dispatchTo` is the block that is called, `block` the one that is gated. -/
structure Route where
  routePrefix : Text
  access : RouteAccess
  block : String
  dispatchTo : String

def Route.new (routePrefix : String) (access : RouteAccess) (block : String) : Route :=
  ⟨routePrefix.toList, access, block, block⟩

def Route.proxy (routePrefix : String) (access : RouteAccess) (block dispatchTo : String) : Route :=
  ⟨routePrefix.toList, access, block, dispatchTo⟩

/-- A route that a deployment registers. -/
structure ExtraRoute where
  routePrefix : Text
  access : RouteAccess
  blockName : String
  /-- Whether an undeclared path asks for a caller that is logged in. -/
  refineUndeclared : Bool

def staticPrefix : String := "/b/static/"

def routes : List Route := [
  .new "/health" .anyone "impresspress/system",
  .new staticPrefix .anyone "impresspress/system",
  .proxy "/b/inspector" .admin "impresspress/inspector" "wafer-run/inspector",
  .new "/b/auth/" .anyone "impresspress/auth-ui",
  .new "/b/admin/" .admin "impresspress/admin",
  .new "/b/storage/" .anyone "impresspress/files",
  .new "/b/cloudstorage/" .anyone "impresspress/files",
  .new "/b/products" .anyone "impresspress/products",
  .new "/b/tickets" .anyone "impresspress/tickets",
  .new "/b/legalpages" .anyone "impresspress/legalpages",
  .new "/b/userportal" .anyone "impresspress/userportal",
  .new "/b/messages" .anyone "impresspress/messages",
  .new "/b/llm" .anyone "impresspress/llm",
  .new "/b/vector/" .anyone "impresspress/vector",
  .new "/b/signal/" .anyone "impresspress/signal"]

structure BlockInfo where
  name : String
  endpoints : List BlockEndpoint
  canDisable : Bool

/-- A request, with the identity that was established for its caller. -/
structure Message where
  action : String
  path : Text
  userId : String
  userRoles : List String

def isAdmin (msg : Message) : Bool := msg.userRoles.any (· == "admin")

/-- Why a caller fails a tier. -/
inductive Denial
  | unauthenticated
  | forbidden
  deriving DecidableEq

def denial (access : RouteAccess) (msg : Message) : Option Denial :=
  match access with
  | .anyone => none
  | .authenticated => if msg.userId.isEmpty then some .unauthenticated else none
  | .admin =>
    if msg.userId.isEmpty then some .unauthenticated
    else if !isAdmin msg then some .forbidden
    else none

/-- The path belongs to the prefix: it starts with it, or lacks no more than its last slash. -/
def routePrefixMatches (routePrefix path : Text) : Bool :=
  path = routePrefix || routePrefix.isPrefixOf path || routePrefix.dropSuffix? ['/'] = some path

def featureGateName (blockName : String) : String :=
  match routes.find? fun r => r.block = blockName || r.dispatchTo = blockName with
  | some r => r.block
  | none => blockName

/-- A block that cannot be disabled is enabled whatever is stored. -/
def isEnabled (features : String → Bool) (registered : List BlockInfo) (gateName : String) : Bool :=
  (registered.any fun b => !b.canDisable && featureGateName b.name == gateName) || features gateName

def declaredEndpointAccess (blockInfos : List BlockInfo) (blockName : String) (action : String)
    (path : Text) : Option RouteAccess :=
  (blockInfos.find? fun i => i.name = blockName).bind fun info =>
    (endpointAuth info.endpoints action path).map .fromAuthLevel

/-- What a block declares for a request; a caller must be logged in where it declares nothing. -/
def declaredAccess (blockInfos : List BlockInfo) (blockName : String) (msg : Message) :
    RouteAccess :=
  (declaredEndpointAccess blockInfos blockName msg.action msg.path).getD .authenticated

/-- The tier that an extra route enforces. -/
def extraRouteAccess (blockInfos : List BlockInfo) (route : ExtraRoute) (msg : Message) :
    RouteAccess :=
  match declaredEndpointAccess blockInfos route.blockName msg.action msg.path with
  | some declared => route.access.max declared
  | none => if route.refineUndeclared then route.access.max .authenticated else route.access

/-- The first built-in route that covers the path. -/
def builtInRoute (path : Text) : Option Route :=
  routes.find? fun route => routePrefixMatches route.routePrefix path

/-- The first extra route that covers the path. -/
def extraRoute (extraRoutes : List ExtraRoute) (path : Text) : Option ExtraRoute :=
  extraRoutes.find? fun route => routePrefixMatches route.routePrefix path

/-- What becomes of a request. -/
inductive Routed
  | landingPage
  | redirect (location : String)
  | failed
  | notFound
  | denied (why : Denial)
  | dispatched (block : String)
  deriving DecidableEq

/-- A request under a route: its block is switched off, the caller is refused, or it is served. -/
def serve (enabled : Bool) (access : RouteAccess) (block : String) (msg : Message) : Routed :=
  if !enabled then .notFound
  else
    match denial access msg with
    | some why => .denied why
    | none => .dispatched block

/-- Route a request; `hasLandingPage` is the setting, unless it could not be read. -/
def routeToBlock (features : String → Bool) (blockInfos : List BlockInfo)
    (extraRoutes : List ExtraRoute) (hasLandingPage : Option Bool) (msg : Message) : Routed :=
  if msg.path = ['/'] then
    match hasLandingPage with
    | none => .failed
    | some true => .landingPage
    | some false =>
      .redirect (if msg.userId.isEmpty then "/b/auth/login" else "/b/userportal/")
  else
    match builtInRoute msg.path with
    | some route =>
      serve (isEnabled features blockInfos route.block)
        (route.access.max (declaredAccess blockInfos route.block msg)) route.dispatchTo msg
    | none =>
      match extraRoute extraRoutes msg.path with
      | some route =>
        serve (isEnabled features blockInfos route.blockName)
          (extraRouteAccess blockInfos route msg) route.blockName msg
      | none => .notFound

/-- The tier that is shown for an endpoint: the strictest one where no route serves its block. -/
def effectiveAccess (block : BlockInfo) (ep : BlockEndpoint) (extraRoutes : List ExtraRoute) :
    RouteAccess :=
  match builtInRoute ep.path with
  | some r =>
    if r.block ≠ block.name ∧ r.dispatchTo ≠ block.name then .admin
    else r.access.max (.fromAuthLevel ep.auth)
  | none =>
    match extraRoute extraRoutes ep.path with
    | some r => if r.blockName = block.name then r.access.max (.fromAuthLevel ep.auth) else .admin
    | none => .admin

/-! ## The gate -/

/-- Whoever passes a tier passes every tier that is not stricter. -/
theorem denial_of_le {a b : RouteAccess} {msg : Message} (h : denial b msg = none)
    (hle : a.rank ≤ b.rank) : denial a msg = none := by
  have hstrict : denial .admin msg = none → denial .authenticated msg = none := by
    simp only [denial]
    split
    · exact nofun
    · exact fun _ => rfl
  cases a <;> cases b <;> first | rfl | exact h | exact hstrict h | (cases hle <;> contradiction)

/-- A built-in route calls the block that it is gated as, or only lets an administrator in. -/
theorem dispatchTo_or_admin : ∀ r ∈ routes, r.dispatchTo = r.block ∨ r.access = .admin := by
  decide

theorem dispatched_of_serve {enabled : Bool} {access : RouteAccess} {block block' : String}
    {msg : Message} (h : serve enabled access block msg = .dispatched block') :
    block = block' ∧ denial access msg = none := by
  unfold serve at h
  split at h
  · cases h
  · split at h
    · cases h
    · cases h
      exact ⟨rfl, ‹_›⟩

/-- What a block declares for a request is at least the level of the row that serves it. -/
theorem le_declaredEndpointAccess {H : Type} {table : List (EndpointRoute H)}
    {blockInfos : List BlockInfo} {name : String} {info : BlockInfo} {msg : Message}
    {row : EndpointRoute H} {params : List (Text × Text)}
    (hinfo : blockInfos.find? (fun i => i.name = name) = some info)
    (htable : info.endpoints = declare table)
    (hrow : selectedRow table msg.action msg.path = some (row, params)) :
    ∃ declared, declaredEndpointAccess blockInfos name msg.action msg.path = some declared ∧
      authRank row.auth ≤ declared.rank := by
  obtain ⟨level, hlevel, hle⟩ := endpointAuth_declare_of_dispatch hrow
  refine ⟨.fromAuthLevel level, ?_, by simpa using hle⟩
  unfold declaredEndpointAccess
  rw [hinfo, Option.bind_some, htable, hlevel]
  rfl

/-- A caller that is let through to a block satisfies the row that its table selects. -/
theorem denial_row_of_dispatched {H : Type} {table : List (EndpointRoute H)}
    {features : String → Bool} {blockInfos : List BlockInfo} {extraRoutes : List ExtraRoute}
    {hasLandingPage : Option Bool} {msg : Message} {name : String} {info : BlockInfo}
    {row : EndpointRoute H} {params : List (Text × Text)}
    (hinfo : blockInfos.find? (fun i => i.name = name) = some info)
    (htable : info.endpoints = declare table)
    (hrow : selectedRow table msg.action msg.path = some (row, params))
    (hrouted : routeToBlock features blockInfos extraRoutes hasLandingPage msg = .dispatched name) :
    denial (.fromAuthLevel row.auth) msg = none := by
  obtain ⟨declared, hdeclared, hle⟩ := le_declaredEndpointAccess hinfo htable hrow
  unfold routeToBlock at hrouted
  split at hrouted
  · split at hrouted <;> cases hrouted
  split at hrouted
  · rename_i route hroute
    obtain ⟨hname, hadmitted⟩ := dispatched_of_serve hrouted
    refine denial_of_le hadmitted ?_
    rw [RouteAccess.rank_max, RouteAccess.rank_fromAuthLevel]
    rcases dispatchTo_or_admin route (List.mem_of_find?_eq_some hroute) with hsame | hadmin
    · unfold declaredAccess
      rw [← hsame, hname, hdeclared, Option.getD_some]
      exact Nat.le_trans hle (Nat.le_max_right ..)
    · rw [hadmin]
      have hrank := (RouteAccess.fromAuthLevel row.auth).rank_le
      rw [RouteAccess.rank_fromAuthLevel] at hrank
      exact Nat.le_trans hrank (Nat.le_max_left ..)
  · split at hrouted
    · rename_i route hroute
      obtain ⟨hname, hadmitted⟩ := dispatched_of_serve hrouted
      refine denial_of_le hadmitted ?_
      unfold extraRouteAccess
      rw [hname, hdeclared]
      dsimp only
      rw [RouteAccess.rank_max, RouteAccess.rank_fromAuthLevel]
      exact Nat.le_trans hle (Nat.le_max_right ..)
    · cases hrouted

/-- Under a built-in route, a path that the block does not declare asks for a caller that is
logged in. -/
theorem denial_undeclared_of_dispatched {features : String → Bool} {blockInfos : List BlockInfo}
    {extraRoutes : List ExtraRoute} {hasLandingPage : Option Bool} {msg : Message} {name : String}
    {route : Route} (hroute : builtInRoute msg.path = some route)
    (hundeclared : declaredEndpointAccess blockInfos route.block msg.action msg.path = none)
    (hrouted : routeToBlock features blockInfos extraRoutes hasLandingPage msg = .dispatched name) :
    denial .authenticated msg = none := by
  unfold routeToBlock at hrouted
  split at hrouted
  · split at hrouted <;> cases hrouted
  rw [hroute] at hrouted
  refine denial_of_le (dispatched_of_serve hrouted).2 ?_
  unfold declaredAccess
  rw [hundeclared, RouteAccess.rank_max]
  exact Nat.le_max_right ..

/-- The router's gate is never weaker than the row that a block dispatches to. -/
theorem gate_not_weaker {H : Type} (table : List (EndpointRoute H)) :
    (∀ action path row params, selectedRow table action path = some (row, params) →
      ∃ level, endpointAuth (declare table) action path = some level ∧
        authRank row.auth ≤ authRank level) ∧
    (∀ action path, dispatch table action path = none ↔
      endpointAuth (declare table) action path = none) ∧
    (∀ table' : List (EndpointRoute H), table.Perm table' → ∀ action path,
      endpointAuth (declare table) action path = endpointAuth (declare table') action path) ∧
    (∀ features blockInfos extraRoutes hasLandingPage msg name info,
      blockInfos.find? (fun i => i.name = name) = some info → info.endpoints = declare table →
      routeToBlock features blockInfos extraRoutes hasLandingPage msg = .dispatched name →
      (∀ row params, selectedRow table msg.action msg.path = some (row, params) →
        denial (.fromAuthLevel row.auth) msg = none) ∧
      ((∃ route, builtInRoute msg.path = some route) → dispatch table msg.action msg.path = none →
        denial .authenticated msg = none)) := by
  have hnone : ∀ action path, dispatch table action path = none ↔
      endpointAuth (declare table) action path = none := fun action path => by
    unfold dispatch
    rw [Option.map_eq_none_iff]
    exact selectedRow_eq_none_iff
  refine ⟨fun _ _ _ _ => endpointAuth_declare_of_dispatch, hnone, fun table' hperm =>
    endpointAuth_perm (hperm.map _), fun features blockInfos extraRoutes hasLandingPage msg name
      info hinfo htable hrouted => ⟨fun row params hrow =>
      denial_row_of_dispatched hinfo htable hrow hrouted, ?_⟩⟩
  rintro ⟨route, hroute⟩ hdispatch
  have hundeclared : declaredEndpointAccess blockInfos name msg.action msg.path = none := by
    unfold declaredEndpointAccess
    rw [hinfo, Option.bind_some, htable, (hnone _ _).mp hdispatch]
    rfl
  have hadmitted := hrouted
  unfold routeToBlock at hadmitted
  split at hadmitted
  · split at hadmitted <;> cases hadmitted
  rw [hroute] at hadmitted
  obtain ⟨hname, hadmitted⟩ := dispatched_of_serve hadmitted
  rcases dispatchTo_or_admin route (List.mem_of_find?_eq_some hroute) with hsame | hadmin
  · rw [← hname, hsame] at hundeclared
    exact denial_undeclared_of_dispatched hroute hundeclared hrouted
  · refine denial_of_le hadmitted ?_
    rw [RouteAccess.rank_max, hadmin]
    exact Nat.le_trans (RouteAccess.rank_le _) (Nat.le_max_left ..)

/-- The listing of a bucket, and the page that is spelled like one. -/
def storageTable : List (EndpointRoute String) := [
  ⟨.get, "/b/storage/{bucket}/".toList, "list", .authenticated, .empty⟩,
  ⟨.get, "/b/storage/admin/".toList, "admin", .admin, .empty⟩]

/-- A request for the page without its last slash is dispatched to the listing, and is gated at
least at its level. -/
theorem gate_not_weaker_storage :
    ∃ level, endpointAuth (declare storageTable) "retrieve" "/b/storage/admin".toList = some level ∧
      authRank .authenticated ≤ authRank level :=
  (gate_not_weaker storageTable).1 "retrieve" "/b/storage/admin".toList
    ⟨.get, "/b/storage/{bucket}/".toList, "list", .authenticated, .empty⟩
    [("bucket".toList, "admin".toList)] rfl

end Routing

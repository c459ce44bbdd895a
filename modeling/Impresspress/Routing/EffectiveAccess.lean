import Impresspress.Routing.Router

/-!
# The tier that is shown and the tier that is enforced

The tier shown for an endpoint is resolved from the text of its template, the tier of a request
from its path. The two agree as long as template and path meet routes of the same tier.

## Main definitions

* `Routing.servingRoute`: the route of a request, with the tier that it enforces.
* `Routing.templateTier`: the tier of the route that the text of a template meets.

## Main results

* `Routing.effectiveAccess_enforced_iff`: when the tier shown is the tier enforced.
-/

namespace Routing

/-- A route that serves a request: the block it is gated as and the block it calls, its own tier,
and the tier that it enforces. -/
structure Serving where
  block : String
  dispatchTo : String
  access : RouteAccess
  enforced : RouteAccess

/-- The first route that covers the path of a request; none is asked for the root. -/
def servingRoute (blockInfos : List BlockInfo) (extraRoutes : List ExtraRoute) (msg : Message) :
    Option Serving :=
  if msg.path = ['/'] then none
  else
    match builtInRoute msg.path with
    | some route => some ⟨route.block, route.dispatchTo, route.access,
        route.access.max (declaredAccess blockInfos route.block msg)⟩
    | none => (extraRoute extraRoutes msg.path).map fun route =>
        ⟨route.blockName, route.blockName, route.access, extraRouteAccess blockInfos route msg⟩

/-- The router serves a request by its route, at the tier that the route enforces. -/
theorem routeToBlock_eq_serve {features : String → Bool} {blockInfos : List BlockInfo}
    {extraRoutes : List ExtraRoute} {hasLandingPage : Option Bool} {msg : Message} {route : Serving}
    (h : servingRoute blockInfos extraRoutes msg = some route) :
    routeToBlock features blockInfos extraRoutes hasLandingPage msg =
      serve (isEnabled features blockInfos route.block) route.enforced route.dispatchTo msg := by
  unfold servingRoute at h
  unfold routeToBlock
  by_cases hroot : msg.path = ['/']
  · rw [if_pos hroot] at h
    cases h
  rw [if_neg hroot] at h ⊢
  cases hbuiltIn : builtInRoute msg.path with
  | some builtIn =>
    rw [hbuiltIn] at h
    cases h
    rfl
  | none =>
    rw [hbuiltIn] at h
    obtain ⟨extra, hextra, rfl⟩ := Option.map_eq_some_iff.mp h
    simp only [hextra]

/-- The route calls the block, or is gated as it. -/
def Serving.serves (route : Serving) (block : BlockInfo) : Prop :=
  route.block = block.name ∨ route.dispatchTo = block.name

/-- The tier of the route that the text of a template meets: the strictest one where there is no
such route, or where it serves another block. -/
def templateTier (block : BlockInfo) (template : Text) (extraRoutes : List ExtraRoute) :
    RouteAccess :=
  match builtInRoute template with
  | some r => if r.block ≠ block.name ∧ r.dispatchTo ≠ block.name then .admin else r.access
  | none =>
    match extraRoute extraRoutes template with
    | some r => if r.blockName = block.name then r.access else .admin
    | none => .admin

/-- Nothing but `ep` decides the request. -/
def Alone (block : BlockInfo) (action : String) (path : Text) (ep : BlockEndpoint) : Prop :=
  ∀ other, Decides block.endpoints action path other → other = ep

/-- What is shown for an endpoint is enforced for a request that it matches: at least that tier,
and just that tier if no other endpoint of the block matches the request. -/
structure Enforced (block : BlockInfo) (ep : BlockEndpoint) (extraRoutes : List ExtraRoute)
    (msg : Message) (route : Serving) : Prop where
  least : (effectiveAccess block ep extraRoutes).rank ≤ route.enforced.rank
  alone : Alone block msg.action msg.path ep →
    route.enforced = effectiveAccess block ep extraRoutes

/-- The tier that the template meets is not above what the route of the path grants or a matching
endpoint declares; and not below it, if the endpoint is the only one that matches. -/
structure SameTier (block : BlockInfo) (ep : BlockEndpoint) (extraRoutes : List ExtraRoute)
    (msg : Message) (route : Serving) : Prop where
  covered : (templateTier block ep.path extraRoutes).rank ≤ route.access.rank ∨
    ∃ other, Decides block.endpoints msg.action msg.path other ∧
      (templateTier block ep.path extraRoutes).rank ≤ authRank other.auth
  alone : Alone block msg.action msg.path ep →
    route.access.rank ≤ (templateTier block ep.path extraRoutes).rank ∨
      route.access.rank ≤ authRank ep.auth

/-- The tier shown is that of the template's route, made stricter by the endpoint. -/
theorem rank_effectiveAccess (block : BlockInfo) (ep : BlockEndpoint)
    (extraRoutes : List ExtraRoute) :
    (effectiveAccess block ep extraRoutes).rank =
      Nat.max (templateTier block ep.path extraRoutes).rank (authRank ep.auth) := by
  have hadmin : RouteAccess.admin.rank = Nat.max RouteAccess.admin.rank (authRank ep.auth) := by
    have hle := (RouteAccess.fromAuthLevel ep.auth).rank_le
    rw [RouteAccess.rank_fromAuthLevel] at hle
    exact (Nat.max_eq_left hle).symm
  have hmax : ∀ access : RouteAccess, (access.max (.fromAuthLevel ep.auth)).rank =
      Nat.max access.rank (authRank ep.auth) := fun access => by
    rw [RouteAccess.rank_max, RouteAccess.rank_fromAuthLevel]
  unfold effectiveAccess templateTier
  cases builtInRoute ep.path with
  | some r =>
    dsimp only
    split
    · exact hadmin
    · exact hmax _
  | none =>
    cases extraRoute extraRoutes ep.path with
    | some r =>
      dsimp only
      split
      · exact hmax _
      · exact hadmin
    | none => exact hadmin

/-- A block among blocks of different names is the one that is found by its name. -/
theorem find?_of_nodup {blockInfos : List BlockInfo} {block : BlockInfo}
    (hnames : (blockInfos.map (·.name)).Nodup) (hmem : block ∈ blockInfos) :
    blockInfos.find? (fun i => i.name = block.name) = some block := by
  induction blockInfos with
  | nil => cases hmem
  | cons first rest ih =>
    rw [List.map_cons, List.nodup_cons] at hnames
    rcases List.mem_cons.mp hmem with rfl | hrest
    · simp
    · have hne : first.name ≠ block.name := fun h =>
        hnames.1 (h ▸ List.mem_map_of_mem hrest)
      rw [List.find?_cons, decide_eq_false hne]
      exact ih hnames.2 hrest

section Enforcing

variable {blockInfos : List BlockInfo} {extraRoutes : List ExtraRoute} {msg : Message}
  {block : BlockInfo} {ep : BlockEndpoint} {route : Serving}

/-- A route that serves the block enforces its own tier, made stricter by the strictest of the
endpoints that match; a route for administrators is as strict as can be. -/
theorem rank_enforced (hnames : (blockInfos.map (·.name)).Nodup) (hmem : block ∈ blockInfos)
    (hep : Decides block.endpoints msg.action msg.path ep)
    (hroute : servingRoute blockInfos extraRoutes msg = some route) (hserves : route.serves block) :
    ∃ level, endpointAuth block.endpoints msg.action msg.path = some level ∧
      route.enforced.rank = Nat.max route.access.rank (authRank level) := by
  obtain ⟨level, hlevel, -⟩ := hep.le_endpointAuth
  refine ⟨level, hlevel, ?_⟩
  have hdeclared : declaredEndpointAccess blockInfos block.name msg.action msg.path =
      some (.fromAuthLevel level) := by
    unfold declaredEndpointAccess
    rw [find?_of_nodup hnames hmem, Option.bind_some, hlevel]
    rfl
  have hadmin : ∀ tier : RouteAccess, (RouteAccess.admin.max tier).rank =
      Nat.max RouteAccess.admin.rank (authRank level) := fun tier => by
    have hle := (RouteAccess.fromAuthLevel level).rank_le
    rw [RouteAccess.rank_fromAuthLevel] at hle
    rw [RouteAccess.rank_max]
    exact (Nat.max_eq_left tier.rank_le).trans (Nat.max_eq_left hle).symm
  unfold servingRoute at hroute
  split at hroute
  · cases hroute
  split at hroute
  · rename_i builtIn hbuiltIn
    cases hroute
    rcases dispatchTo_or_admin builtIn (List.mem_of_find?_eq_some hbuiltIn) with hsame | hadmin'
    · have hname : builtIn.block = block.name := hserves.elim id fun h => hsame ▸ h
      change (builtIn.access.max _).rank = _
      unfold declaredAccess
      rw [hname, hdeclared, RouteAccess.rank_max, Option.getD_some,
        RouteAccess.rank_fromAuthLevel]
    · change (builtIn.access.max _).rank = Nat.max builtIn.access.rank _
      rw [hadmin']
      exact hadmin _
  · obtain ⟨extra, -, rfl⟩ := Option.map_eq_some_iff.mp hroute
    have hname : extra.blockName = block.name := hserves.elim id id
    change (extraRouteAccess _ _ _).rank = _
    unfold extraRouteAccess
    rw [hname, hdeclared]
    dsimp only
    rw [RouteAccess.rank_max, RouteAccess.rank_fromAuthLevel]

/-- The tier that is shown for an endpoint is the tier that the router enforces exactly if the
template and the path meet routes of the same tier, as far as that matters. -/
theorem effectiveAccess_enforced_iff (hnames : (blockInfos.map (·.name)).Nodup)
    (hmem : block ∈ blockInfos) (hep : Decides block.endpoints msg.action msg.path ep)
    (hroute : servingRoute blockInfos extraRoutes msg = some route) (hserves : route.serves block) :
    Enforced block ep extraRoutes msg route ↔ SameTier block ep extraRoutes msg route := by
  obtain ⟨level, hlevel, henforced⟩ := rank_enforced hnames hmem hep hroute hserves
  have hstrictest := strictest_endpointAuth hlevel
  have hshown := rank_effectiveAccess block ep extraRoutes
  have hauth := hstrictest.bound ep hep
  have hle : ∀ a b c : ℕ, a ≤ Nat.max b c ↔ a ≤ b ∨ a ≤ c := fun a b c =>
    ⟨fun h => by unfold Nat.max at h; omega, fun h => by unfold Nat.max; omega⟩
  constructor
  · intro h
    have hleast := h.least
    rw [hshown, henforced] at hleast
    have htier := Nat.le_trans (Nat.le_max_left _ _) hleast
    refine ⟨((hle _ _ _).mp htier).imp_right fun hdeclared => ?_, fun halone => ?_⟩
    · obtain ⟨other, hother, hsame⟩ := hstrictest.attained
      exact ⟨other, hother, hsame ▸ hdeclared⟩
    · have hequal := congrArg RouteAccess.rank (h.alone halone)
      rw [henforced, hshown] at hequal
      exact (hle _ _ _).mp (hequal ▸ Nat.le_max_left _ _)
  · intro h
    have hcovered : (templateTier block ep.path extraRoutes).rank ≤
        Nat.max route.access.rank (authRank level) := by
      refine (hle _ _ _).mpr (h.covered.imp_right ?_)
      rintro ⟨other, hother, hdeclared⟩
      exact Nat.le_trans hdeclared (hstrictest.bound other hother)
    have hleast : (effectiveAccess block ep extraRoutes).rank ≤ route.enforced.rank := by
      rw [hshown, henforced]
      exact Nat.max_le.mpr ⟨hcovered, Nat.le_trans hauth (Nat.le_max_right ..)⟩
    refine ⟨hleast, fun halone => RouteAccess.rank_injective (Nat.le_antisymm ?_ hleast)⟩
    obtain ⟨other, hother, hsame⟩ := hstrictest.attained
    rw [halone other hother] at hsame
    rw [hshown, henforced, ← hsame]
    exact Nat.max_le.mpr ⟨(hle _ _ _).mpr (h.alone halone), Nat.le_max_right ..⟩

end Enforcing

/-! ## A path with a route of its own -/

/-- A shop with public pages, one of which the deployment has put under a stricter route. -/
def shop : BlockInfo :=
  ⟨"acme/shop", [⟨.get, "/shop/{page}".toList, .anyone, .empty⟩], true⟩

def shopRoutes : List ExtraRoute := [
  ⟨"/shop/office".toList, .admin, "acme/shop", false⟩,
  ⟨"/shop".toList, .anyone, "acme/shop", false⟩]

def officeRequest : Message := ⟨"retrieve", "/shop/office".toList, "", []⟩

theorem shop_decides : Decides shop.endpoints officeRequest.action officeRequest.path
    ⟨.get, "/shop/{page}".toList, .anyone, .empty⟩ :=
  ⟨List.mem_singleton_self _, .inl (by decide)⟩

/-- The page is shown as public, and it is the only endpoint that matches; the router asks for an
administrator. -/
theorem effectiveAccess_not_enforced :
    ∃ route, servingRoute [shop] shopRoutes officeRequest = some route ∧ route.serves shop ∧
      ¬ Enforced shop ⟨.get, "/shop/{page}".toList, .anyone, .empty⟩ shopRoutes officeRequest
        route := by
  refine ⟨⟨"acme/shop", "acme/shop", .admin, .admin⟩, by rfl, .inl rfl, fun h => ?_⟩
  have halone : Alone shop officeRequest.action officeRequest.path
      ⟨.get, "/shop/{page}".toList, .anyone, .empty⟩ := fun other hother =>
    List.mem_singleton.mp hother.mem
  have hequal : RouteAccess.admin = .anyone := h.alone halone
  cases hequal

/-- The other pages are shown as the router serves them. -/
theorem effectiveAccess_enforced_welcome :
    Enforced shop ⟨.get, "/shop/{page}".toList, .anyone, .empty⟩ shopRoutes
        ⟨"retrieve", "/shop/welcome".toList, "", []⟩ ⟨"acme/shop", "acme/shop", .anyone, .anyone⟩ ↔
      SameTier shop ⟨.get, "/shop/{page}".toList, .anyone, .empty⟩ shopRoutes
        ⟨"retrieve", "/shop/welcome".toList, "", []⟩ ⟨"acme/shop", "acme/shop", .anyone, .anyone⟩ :=
  effectiveAccess_enforced_iff (by decide : (List.map (·.name) [shop]).Nodup)
    (List.mem_singleton_self _)
    ⟨List.mem_singleton_self _, .inl (by decide)⟩ (by rfl) (.inl rfl)

end Routing

import FileRelay.Deployment

/-!
# Routes and muxes

The router compares the unescaped path of a request with its routes. The shard and `filerelayd`
have a mux, which compares the names of the path and sends a client elsewhere if the path is not
clean. A request that a mux passes on spells a route (`Spells`), and so it has it
(`route_of_spells`). The others get a page of the mux (`TurnedAway`, `shardServe_cases`).
-/

namespace FileRelay

open ServeMux (Plain Stays segments cleanPath parse lookup)

/-- A mux looks the path up as it is. -/
def HTTPRequest.Kept (r : HTTPRequest) : Prop :=
  Stays (r.method = .connect) r.path

/-- A mux finds the names of the route in the path. -/
structure HTTPRequest.Spells (r : HTTPRequest) (route : Route) : Prop where
  kept : r.Kept
  names : segments r.path = segments route.path

theorem Route.mem_all (route : Route) : route ∈ Route.all := by
  cases route <;> decide

-- The paths are evaluated once for all that is said of them.
theorem Route.checked : ∀ route ∈ Route.all, Plain (segments route.path) ∧
    47 :: [47].intercalate (segments route.path) = route.path ∧
    parse route.path = ⟨segments route.path, false⟩ ∧ cleanPath route.path = route.path ∧
    (Route.all.find? fun route' => route'.path = route.path) = some route := by
  decide +kernel

theorem Route.plain (route : Route) : Plain (segments route.path) :=
  (Route.checked route route.mem_all).1

theorem Route.path_eq (route : Route) :
    47 :: [47].intercalate (segments route.path) = route.path :=
  (Route.checked route route.mem_all).2.1

theorem Route.parse_path (route : Route) : parse route.path = ⟨segments route.path, false⟩ :=
  (Route.checked route route.mem_all).2.2.1

theorem Route.cleanPath_path (route : Route) : cleanPath route.path = route.path :=
  (Route.checked route route.mem_all).2.2.2.1

variable {r : HTTPRequest} {route : Route}

theorem route_of_urlPath (h : r.urlPath = route.path) : r.route = some route := by
  unfold HTTPRequest.route
  rw [h]
  exact (Route.checked route route.mem_all).2.2.2.2

/-- The names of a path are those of the route it has. -/
theorem route_of_spells (h : r.Spells route) : r.route = some route := by
  refine route_of_urlPath ?_
  unfold HTTPRequest.urlPath
  rw [ServeMux.unescape_eq (h.names ▸ route.plain), h.names, route.path_eq]

theorem HTTPRequest.Spells.path_ne (h : r.Spells route) : r.path ≠ ascii "*" := by
  intro hpath
  have hnames := h.names
  rw [hpath] at hnames
  exact route.plain.1 (hnames.symm.trans (by decide +kernel))

/-- A request that names a route without escapes spells it. -/
theorem spells_of_path (h : r.path = route.path) : r.Spells route := by
  refine ⟨.inr ?_, congrArg segments h⟩
  rw [h]
  exact route.cleanPath_path

namespace Deployment

variable (d : Deployment)

/-! ## The mux of the shard -/

theorem mem_shardMux {e : ServeMux.Pattern × Route} (h : e ∈ shardMux) :
    e.2 ∈ shardRoutes ∧ e.1 = ⟨segments e.2.path, false⟩ := by
  obtain ⟨route, hroute, rfl⟩ := List.mem_map.mp h
  exact ⟨hroute, route.parse_path⟩

theorem lookup_shardMux : ∀ route ∈ shardRoutes,
    lookup shardMux (segments route.path) = some (parse route.path, route) := by
  decide +kernel

/-- What the mux of the shard makes of a request. -/
theorem findIn_shardMux (r : HTTPRequest) :
    (∃ route ∈ shardRoutes, r.Spells route ∧ findIn r shardMux = .serve route) ∨
    (¬r.Kept ∧ findIn r shardMux = .clean (cleanPath r.path)) ∨
    r.Kept ∧ (∀ route ∈ shardRoutes, ¬r.Spells route) ∧ findIn r shardMux = .unknown := by
  rcases ServeMux.find_cases shardMux (r.method = .connect) r.path with
    ⟨target, h⟩ | ⟨hnot, h⟩ | ⟨hkept, h⟩
  · -- There is no subtree.
    refine absurd h (ServeMux.find_ne_slash (fun e he => ?_) (fun route he => ?_) target)
    · rw [(mem_shardMux he).2]
      exact e.2.plain
    · exact Bool.noConfusion (congrArg ServeMux.Pattern.subtree (mem_shardMux he).2)
  · exact .inr (.inl ⟨hnot, h⟩)
  · cases hlook : lookup shardMux (segments r.path) with
    | none =>
      rw [hlook] at h
      refine .inr (.inr ⟨hkept, fun route hroute hspells => ?_, h⟩)
      rw [hspells.names, lookup_shardMux route hroute] at hlook
      cases hlook
    | some e =>
      rw [hlook] at h
      obtain ⟨he, hp⟩ := ServeMux.lookup_eq_some hlook
      obtain ⟨hroute, hp'⟩ := mem_shardMux he
      rw [hp'] at hp
      rcases hp with hp | ⟨n, -, hp⟩
      · exact .inl ⟨e.2, hroute, ⟨hkept, (congrArg ServeMux.Pattern.names hp).symm⟩, h⟩
      · exact Bool.noConfusion (congrArg ServeMux.Pattern.subtree hp)

/-- The page of the mux of the shard for a request that it does not pass on. -/
inductive TurnedAway (r : HTTPRequest) : Response → Prop
  | asterisk (hpath : r.path = ascii "*") : TurnedAway r badRequest
  | moved (hpath : r.path ≠ ascii "*") (hkept : ¬r.Kept) :
    TurnedAway r (d.redirect r d.moved (cleanPath r.path))
  | unknown (hpath : r.path ≠ ascii "*") (hkept : r.Kept)
      (hroute : ∀ route ∈ shardRoutes, ¬r.Spells route) : TurnedAway r notFound

variable {d}

theorem TurnedAway.status_ne {resp : Response} (h : d.TurnedAway r resp) : resp.status ≠ 200 := by
  cases h with
  | asterisk => decide
  | moved =>
    change d.moved.1 ≠ 200
    rcases d.moved.2 with h | h <;> rw [h] <;> decide
  | unknown => decide

/-- A shard hands a request to the handler of the route it spells, or turns it away. -/
theorem shardServe_cases (d : Deployment) (i : ℕ) (r : HTTPRequest) :
    (∃ route ∈ shardRoutes, r.Spells route ∧ d.shardServe i r = d.shardHandler i r route) ∨
    ∃ resp, d.TurnedAway r resp ∧ d.shardServe i r = .ret resp := by
  unfold shardServe muxServe
  split_ifs with hpath
  · exact .inr ⟨_, .asterisk hpath, rfl⟩
  · rcases findIn_shardMux r with ⟨route, hroute, hspells, h⟩ | ⟨hnot, h⟩ | ⟨hkept, hno, h⟩
    · rw [h]
      exact .inl ⟨route, hroute, hspells, rfl⟩
    · rw [h]
      exact .inr ⟨_, .moved hpath hnot, rfl⟩
    · rw [h]
      exact .inr ⟨_, .unknown hpath hkept hno, rfl⟩

/-- The handler of a route that is spelled. -/
theorem shardServe_of_spells (d : Deployment) (i : ℕ) (hroute : route ∈ shardRoutes)
    (h : r.Spells route) : d.shardServe i r = d.shardHandler i r route := by
  unfold shardServe muxServe
  rw [if_neg h.path_ne]
  rcases findIn_shardMux r with ⟨route', -, hspells, hfind⟩ | ⟨hnot, -⟩ | ⟨-, hno, -⟩
  · rw [hfind]
    obtain rfl := Option.some.inj ((route_of_spells h).symm.trans (route_of_spells hspells))
    rfl
  · exact absurd h.kept hnot
  · exact absurd h (hno route hroute)

end Deployment

end FileRelay

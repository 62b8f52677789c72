import FileRelay.Answers

/-!
# One process

`filerelayd` runs the router and one shard behind one mux. `filerelayd_refines` says that it is the
relay with each request at the host the mux picks, so that what is proved of the runs of the relay
holds for it. The one difference is the root of the transfer routes, which the mux of the shard does
not know and the mux in front of it redirects (`fronted`). No route is lost : a request that spells
one is served by its handler at its host, and all others get a page of a mux (`muxPage`).
-/

namespace FileRelay

open Pool (started history answers turns)
open ServeMux (Plain Stays segments cleanPath lookup)

/-! ## Handlers -/

/-- All answers of the handler have a schema, as no page of a mux has. -/
def Routed (p : Handler) : Prop :=
  ∀ h : History, Prog.Holds (fun _ _ => True) (fun _ _ => True)
    (fun _ resp => resp.schema ≠ none) h p

section Routed

variable {np : NanoPack.Codec} {host : Host} {r : HTTPRequest}

theorem routed_call {c : RelayCall} {next : c.Answer → Handler} (h : ∀ a, Routed (next a)) :
    Routed (.call c next) :=
  fun _ => ⟨trivial, fun a _ => h a _⟩

theorem routed_ret {resp : Response} (h : resp.schema ≠ none) : Routed (.ret resp) :=
  fun _ => h

theorem routed_refuse {e : ProtocolError} : Routed (host.refuse np e) := by
  refine routed_ret ?_
  cases host with
  | router => exact Option.some_ne_none 51
  | shard i =>
    change (Shard.writeError np e).schema ≠ none
    unfold Shard.writeError
    split_ifs <;> exact Option.some_ne_none 51

theorem routed_ite {c : Prop} [Decidable c] {p q : Handler} (hp : Routed p) (hq : Routed q) :
    Routed (if c then p else q) := by
  split_ifs
  · exact hp
  · exact hq

theorem routed_orRefuse {α : Type} {x : Wire α} {rest : α → Handler} (h : ∀ a, Routed (rest a)) :
    Routed (host.orRefuse np x rest) := by
  cases x with
  | error e => exact routed_refuse
  | ok a => exact h a

theorem routed_respond {schema : UInt8} {x : Wire Bytes} : Routed (host.respond np schema x) :=
  routed_orRefuse fun _ => routed_ret (Option.some_ne_none schema)

theorem routed_onPost {rest : Handler} (h : Routed rest) : Routed (host.onPost np r rest) :=
  routed_ite routed_refuse h

theorem routed_allowed {i : ℕ} {now : ℤ} {rest : Handler} (h : Routed rest) :
    ∀ slots, Routed (host.allowed np i now slots rest)
  | [] => h
  | _ :: slots => routed_call fun (_ : Bool) => routed_ite (routed_allowed h slots) routed_refuse

theorem routed_hello : Routed (handleHello np host r) := by
  have hanswer : Routed (.call .clock fun (now : ℤ) =>
      .ret (writeProto 50 (packed np (helloNow now).fields))) :=
    routed_call fun _ => routed_ret (Option.some_ne_none 50)
  unfold handleHello
  cases r.method with
  | connect | other => exact routed_refuse
  | get => exact hanswer
  | post => exact routed_orRefuse fun _ => hanswer

end Routed

namespace Deployment

variable (d : Deployment) (i : ℕ) (r : HTTPRequest)

theorem routed_send : Routed (d.handleSend i r) :=
  routed_onPost <| routed_call fun _ => routed_orRefuse fun _ => routed_orRefuse fun _ =>
    routed_call fun (_ : Bool) => routed_ite routed_refuse <|
    routed_allowed (routed_call fun _ => routed_orRefuse fun _ => routed_respond) _

theorem routed_receive : Routed (d.handleReceive i r) :=
  routed_onPost <| routed_call fun _ => routed_orRefuse fun _ =>
    routed_allowed (routed_call fun _ => routed_orRefuse fun _ => routed_respond) _

theorem routed_ack : Routed (d.handleAck i r) :=
  routed_onPost <| routed_orRefuse fun _ =>
    routed_call fun _ => routed_orRefuse fun _ => routed_respond

theorem routed_create : Routed (d.handleCreate i r) :=
  routed_onPost <| routed_call fun _ => routed_orRefuse fun _ => routed_orRefuse fun _ =>
    routed_call fun (_ : Bool) => routed_ite routed_refuse <|
    routed_allowed (routed_call fun _ => routed_orRefuse fun _ => routed_respond) _

theorem routed_put : Routed (d.handlePut i r) :=
  routed_onPost <| routed_call fun _ => routed_orRefuse fun _ =>
    routed_allowed (routed_call fun _ => routed_orRefuse fun _ =>
      routed_call fun _ => routed_orRefuse fun _ => routed_respond) _

theorem routed_get : Routed (d.handleGet i r) :=
  routed_onPost <| routed_orRefuse fun _ => routed_ite routed_refuse <|
    have hrest := fun _ => routed_orRefuse fun _ => routed_respond
    routed_ite (routed_call hrest) (routed_call hrest)

theorem routed_resume : Routed (d.handleResume i r) :=
  routed_onPost <| routed_orRefuse fun _ =>
    have hrest := fun _ => routed_orRefuse fun _ => routed_respond
    routed_ite (routed_call hrest) (routed_call hrest)

theorem routed_complete : Routed (d.handleComplete i r) :=
  routed_onPost <| routed_call fun _ => routed_orRefuse fun _ => routed_orRefuse fun _ =>
    routed_call fun (_ : Bool) => routed_ite routed_refuse <|
    routed_call fun _ => routed_orRefuse fun _ => routed_ite routed_refuse <|
    routed_call fun _ => routed_orRefuse fun _ => routed_respond

theorem routed_cancel : Routed (d.handleCancel i r) :=
  routed_onPost <| routed_orRefuse fun _ =>
    routed_call fun _ => routed_orRefuse fun _ => routed_respond

theorem routed_createFor (req : Register) (now : ℤ) : Routed (d.createFor req now) := by
  refine routed_ite routed_refuse (routed_ite routed_refuse ?_)
  dsimp only
  split
  · exact routed_refuse
  · refine routed_call fun draw => ?_
    cases draw with
    | none => exact routed_refuse
    | some secret => exact routed_call fun _ => routed_respond

theorem routed_register : Routed (d.handleRegister r) :=
  routed_onPost <| routed_call fun _ => routed_call fun (_ : Bool) => routed_ite routed_refuse <|
    routed_orRefuse fun _ => routed_orRefuse fun _ => routed_call fun (_ : Bool) =>
      routed_ite routed_refuse (d.routed_createFor _ _)

theorem routed_probe (mid : ID) (primary : Bytes) : ∀ urls, Routed (d.probe mid primary urls)
  | [] => routed_respond
  | u :: left => by
    unfold probe
    split
    · exact routed_probe mid primary left
    · exact routed_call fun (_ : Bool) => routed_ite routed_respond (routed_probe mid primary left)

theorem routed_resolve : Routed (d.handleResolve r) :=
  routed_onPost <| routed_call fun _ => routed_call fun (_ : Bool) => routed_ite routed_refuse <|
    routed_orRefuse fun _ => routed_ite routed_refuse (d.routed_probe _ _ _)

theorem routed_table : Routed (d.handleTable r) :=
  routed_ite routed_refuse <| routed_call fun _ => routed_orRefuse fun _ =>
    routed_ret (Option.some_ne_none 56)

/-! ## The mux -/

/-- The host of a route in `filerelayd`. -/
def hostOf : Route → Host
  | .register | .resolve | .table | .hello => .router
  | _ => .shard 0

theorem routed_routerServe {route : Route} (hroute : r.route = some route)
    (hhost : hostOf route = .router) : Routed (d.routerServe r) := by
  unfold routerServe
  rw [hroute]
  cases route with
  | register => exact d.routed_register r
  | resolve => exact d.routed_resolve r
  | table => exact d.routed_table r
  | hello => exact routed_hello
  | _ => cases hhost

theorem mem_shardRoutes {route : Route} (hhost : hostOf route = .shard 0) :
    route ∈ shardRoutes := by
  revert hhost
  cases route <;> decide

theorem routed_shardServe {r : HTTPRequest} {route : Route} (h : r.Spells route)
    (hhost : hostOf route = .shard 0) : Routed (d.shardServe 0 r) := by
  rw [d.shardServe_of_spells 0 (mem_shardRoutes hhost) h]
  cases route with
  | send => exact d.routed_send 0 r
  | receive => exact d.routed_receive 0 r
  | ack => exact d.routed_ack 0 r
  | create => exact d.routed_create 0 r
  | put => exact d.routed_put 0 r
  | get => exact d.routed_get 0 r
  | resume => exact d.routed_resume 0 r
  | complete => exact d.routed_complete 0 r
  | cancel => exact d.routed_cancel 0 r
  | _ => cases hhost

/-- A request that spells a route is served by a handler. -/
theorem routed_hostOf {r : HTTPRequest} {route : Route} (h : r.Spells route) :
    Routed (d.serveHTTP (hostOf route, r)) := by
  have hhost : hostOf route = .router ∨ hostOf route = .shard 0 := by
    cases route <;> decide
  rcases hhost with hhost | hhost
  · rw [hhost]
    exact d.routed_routerServe r (route_of_spells h) hhost
  · rw [hhost]
    exact d.routed_shardServe h hhost

-- The patterns are evaluated once for all that is said of them.
theorem checked_daemonMux :
    (∀ e ∈ daemonMux, Plain e.1.names ∧
      (e.2 = .shard 0 ∨ ∃ route ∈ Route.all, e.1 = ⟨segments route.path, false⟩) ∧
      e.1 ≠ ⟨segments (ascii "*"), true⟩ ∧ e.1 ≠ ⟨segments (cleanPath (ascii "*")), true⟩) ∧
    ∀ route ∈ Route.all,
      (lookup daemonMux (segments route.path)).map Prod.snd = some (hostOf route) ∧
      ∀ e ∈ daemonMux, e.1 ≠ ⟨segments route.path, true⟩ := by
  decide +kernel

theorem plain_daemonMux (e : ServeMux.Pattern × Host) (he : e ∈ daemonMux) : Plain e.1.names :=
  (checked_daemonMux.1 e he).1

/-- The patterns of the router are routes. -/
theorem mem_daemonMux (e : ServeMux.Pattern × Host) (he : e ∈ daemonMux) : e.2 = .shard 0 ∨
    ∃ route ∈ Route.all, e.1 = ⟨segments route.path, false⟩ :=
  (checked_daemonMux.1 e he).2.1

theorem lookup_daemonMux (route : Route) :
    (lookup daemonMux (segments route.path)).map Prod.snd = some (hostOf route) :=
  (checked_daemonMux.2 route route.mem_all).1

theorem not_root (route : Route) : ∀ e ∈ daemonMux, e.1 ≠ ⟨segments route.path, true⟩ :=
  (checked_daemonMux.2 route route.mem_all).2

theorem asterisk_ne_root (e : ServeMux.Pattern × Host) (he : e ∈ daemonMux) :
    e.1 ≠ ⟨segments (ascii "*"), true⟩ ∧ e.1 ≠ ⟨segments (cleanPath (ascii "*")), true⟩ :=
  (checked_daemonMux.1 e he).2.2

/-- A route that is spelled is passed on to its host. -/
theorem findIn_daemonMux {r : HTTPRequest} {route : Route} (h : r.Spells route) :
    findIn r daemonMux = .serve (hostOf route) := by
  have hpath : (if decide (r.method = .connect) = true then r.path else cleanPath r.path) =
      r.path := by
    split_ifs with hconnect
    · rfl
    · exact h.kept.resolve_left hconnect
  rcases ServeMux.find_cases daemonMux (r.method = .connect) r.path with
    ⟨target, hfind⟩ | ⟨hnot, -⟩ | ⟨-, hfind⟩
  · refine absurd hfind (ServeMux.find_ne_slash plain_daemonMux (fun host hmem => ?_) target)
    rw [hpath, h.names] at hmem
    exact not_root route _ hmem rfl
  · exact absurd h.kept hnot
  · obtain ⟨e, he, hhost⟩ := Option.map_eq_some_iff.mp (lookup_daemonMux route)
    rw [h.names, he] at hfind
    exact hhost ▸ hfind

/-- The host the mux picks for a request. -/
def muxHost (r : HTTPRequest) : Host :=
  match findIn r daemonMux with
  | .serve host => host
  | _ => .shard 0

/-- The answer of `filerelayd` to a request that the relay answers with `resp`. -/
def fronted (r : HTTPRequest) (resp : Response) : Response :=
  match findIn r daemonMux with
  | .slash target => d.redirect r d.slashed target
  | _ => resp

/-- The page for a request that spells no route. -/
def muxPage (r : HTTPRequest) : Response :=
  if r.path = ascii "*" then badRequest else
  match findIn r daemonMux with
  | .slash target => d.redirect r d.slashed target
  | .clean target => d.redirect r d.moved target
  | _ => notFound

/-! ## Requests -/

/-- `filerelayd` serves a request that spells a route at the host of the route. -/
theorem filerelayd_of_spells {r : HTTPRequest} {route : Route} (h : r.Spells route) :
    d.filerelayd.handler r = d.serveHTTP (hostOf route, r) := by
  change d.muxServe r daemonMux _ = _
  unfold muxServe
  rw [if_neg h.path_ne, findIn_daemonMux h]

section NoRoute

variable {d} {r : HTTPRequest} (h : ¬∃ route, r.Spells route)

include h

/-- What the mux makes of a request that spells no route. -/
theorem findIn_of_not_spells :
    (∃ target, findIn r daemonMux = .slash target) ∨
    (¬r.Kept ∧ findIn r daemonMux = .clean (cleanPath r.path)) ∨
    r.Kept ∧ (findIn r daemonMux = .serve (.shard 0) ∨ findIn r daemonMux = .unknown) := by
  rcases ServeMux.find_cases daemonMux (r.method = .connect) r.path with
    hslash | hclean | ⟨hkept, hfind⟩
  · exact .inl hslash
  · exact .inr (.inl hclean)
  refine .inr (.inr ⟨hkept, ?_⟩)
  cases hlook : lookup daemonMux (segments r.path) with
  | none =>
    rw [hlook] at hfind
    exact .inr hfind
  | some e =>
    rw [hlook] at hfind
    obtain ⟨he, hp⟩ := ServeMux.lookup_eq_some hlook
    rcases mem_daemonMux e he with hshard | ⟨route, -, hroute⟩
    · exact .inl (hshard ▸ hfind)
    · -- The other patterns are routes.
      rw [hroute] at hp
      rcases hp with hp | ⟨n, -, hp⟩
      · exact absurd ⟨route, hkept, (congrArg ServeMux.Pattern.names hp).symm⟩ h
      · exact Bool.noConfusion (congrArg ServeMux.Pattern.subtree hp)

theorem muxHost_of_not_spells : muxHost r = .shard 0 := by
  unfold muxHost
  rcases findIn_of_not_spells h with ⟨target, hfind⟩ | ⟨-, hfind⟩ | ⟨-, hfind | hfind⟩ <;>
    rw [hfind]

/-- The shard turns the request away, too. -/
theorem shardServe_of_not_spells :
    ∃ resp, d.TurnedAway r resp ∧ d.shardServe 0 r = .ret resp := by
  rcases d.shardServe_cases 0 r with ⟨route, -, hspells, -⟩ | hpage
  · exact absurd ⟨route, hspells⟩ h
  · exact hpage

/-- A request that spells no route gets a page, from the mux in front or from that of the shard. -/
theorem filerelayd_of_not_spells : d.filerelayd.handler r = .ret (d.muxPage r) := by
  change d.muxServe r daemonMux _ = _
  unfold muxServe muxPage
  split_ifs with hpath
  · rfl
  · rcases findIn_of_not_spells h with ⟨target, hfind⟩ | ⟨-, hfind⟩ | ⟨hkept, hfind | hfind⟩
    all_goals rw [hfind]
    obtain ⟨resp, hpage, hserve⟩ := shardServe_of_not_spells (d := d) h
    change d.shardServe 0 r = _
    rw [hserve]
    cases hpage with
    | asterisk hstar => exact absurd hstar hpath
    | moved _ hnot => exact absurd hkept hnot
    | unknown => rfl

/-- The page of the shard is that of `filerelayd`, but for the root of the subtree. -/
theorem fronted_turnedAway {resp : Response} (hpage : d.TurnedAway r resp) :
    d.fronted r resp = d.muxPage r := by
  unfold fronted muxPage
  cases hpage with
  | asterisk hpath =>
    have hne : ∀ target, findIn r daemonMux ≠ .slash target := by
      intro target
      refine ServeMux.find_ne_slash plain_daemonMux (fun host hmem => ?_) target
      rw [hpath] at hmem
      split_ifs at hmem
      · exact (asterisk_ne_root _ hmem).1 rfl
      · exact (asterisk_ne_root _ hmem).2 rfl
    rw [if_pos hpath]
    split
    · rename_i target hfind
      exact absurd hfind (hne target)
    · rfl
  | moved hpath hnot =>
    rw [if_neg hpath]
    rcases findIn_of_not_spells h with ⟨target, hfind⟩ | ⟨-, hfind⟩ | ⟨hkept, -⟩
    · rw [hfind]
    · rw [hfind]
    · exact absurd hkept hnot
  | unknown hpath hkept =>
    rw [if_neg hpath]
    rcases findIn_of_not_spells h with ⟨target, hfind⟩ | ⟨hnot, -⟩ | ⟨-, hfind | hfind⟩
    · rw [hfind]
    · exact absurd hkept hnot
    · rw [hfind]
    · rw [hfind]

end NoRoute

/-- `filerelayd` is a front of the relay. -/
theorem fronts_relay :
    d.relay.Fronts d.filerelayd (fun r => (muxHost r, r)) d.fronted where
  serve := rfl
  handler r := by
    change _ = (d.serveHTTP (muxHost r, r)).map (d.fronted r)
    by_cases h : ∃ route, r.Spells route
    · obtain ⟨route, hspells⟩ := h
      have hid : d.fronted r = fun resp => resp := by
        unfold fronted
        rw [findIn_daemonMux hspells]
      rw [d.filerelayd_of_spells hspells, hid, Prog.map_self]
      unfold muxHost
      rw [findIn_daemonMux hspells]
    · obtain ⟨resp, hpage, hserve⟩ := shardServe_of_not_spells (d := d) h
      rw [filerelayd_of_not_spells h, muxHost_of_not_spells h, ← fronted_turnedAway h hpage]
      change _ = (d.shardServe 0 r).map (d.fronted r)
      rw [hserve]
      rfl

/-! ## Runs -/

/-- The event of `filerelayd` at the host its mux picks. -/
def atHost : Pool.Event Env HTTPRequest → RelayEvent :=
  Pool.Event.map fun r => (muxHost r, r)

/-- What a request is answered by. -/
theorem page_or_handler (r : HTTPRequest) : Prog.Holds (fun _ _ => True) (fun _ _ => True)
    (fun _ resp => ((∃ route, r.Spells route) → resp.schema ≠ none) ∧
      ((¬∃ route, r.Spells route) → resp = d.muxPage r)) [] (d.filerelayd.handler r) := by
  by_cases h : ∃ route, r.Spells route
  · obtain ⟨route, hspells⟩ := id h
    rw [d.filerelayd_of_spells hspells]
    exact (d.routed_hostOf hspells []).imp (fun _ _ h => h) fun _ resp hne =>
      ⟨fun _ => hne, fun hno => absurd h hno⟩
  · rw [filerelayd_of_not_spells h]
    exact ⟨fun hex => absurd hex h, fun _ => rfl⟩

/-- `filerelayd` is the relay behind its mux : a run of it leaves the state, makes the calls and
gives the answers of the run of the relay in which each request is at the host the mux picks, but
that the root of the transfer routes is redirected. A request that spells a route is at the host of
the route and answered by its handler, and all others get the page of a mux. -/
theorem filerelayd_refines (d : Deployment) (es : List (Pool.Event Env HTTPRequest)) :
    (d.filerelayd.pool.run (Server.idle newRelay) es).object = (d.run (es.map atHost)).object ∧
    ∀ k r, (started es)[k]? = some r →
      (started (es.map atHost))[k]? = some (muxHost r, r) ∧
      (∀ route, r.Spells route → muxHost r = hostOf route) ∧
      history k (d.filerelayd.pool.trace (Server.idle newRelay) es) =
        history k (d.trace (es.map atHost)) ∧
      answers k (d.filerelayd.pool.trace (Server.idle newRelay) es) =
        (answers k (d.trace (es.map atHost))).map (d.fronted r) ∧
      ∀ resp ∈ answers k (d.filerelayd.pool.trace (Server.idle newRelay) es),
        ((∃ route, r.Spells route) → resp.schema ≠ none) ∧
        ((¬∃ route, r.Spells route) → resp = d.muxPage r) := by
  obtain ⟨hmatched, hhistory⟩ := d.fronts_relay.run newRelay es
  refine ⟨hmatched.object, fun k r hr => ⟨?_, fun route hspells => ?_, hhistory k,
    d.fronts_relay.answers newRelay hr, fun resp hresp => ?_⟩⟩
  · rw [atHost, Pool.started_map, List.getElem?_map, hr]
    rfl
  · unfold muxHost
    rw [findIn_daemonMux hspells]
  · obtain ⟨r', hr', hpage⟩ := Server.holds_answer (I := fun _ => True) trivial
      (fun _ _ _ _ => ⟨trivial, trivial⟩) d.page_or_handler hresp
    obtain rfl := Option.some.inj (hr.symm.trans hr')
    exact hpage

/-- A registration, a create, a path that is not clean, the root of the transfer routes, and two
paths that are no routes. -/
def daemonRequests : List HTTPRequest :=
  [samplePost .register (marshalRegister NanoPack.reference sampleRegister),
    samplePost .create (marshalTransferCreate NanoPack.reference sampleTransfer),
    ⟨.get, ascii "/fr//v1/hello", [], 0, [], false⟩,
    ⟨.get, ascii "/fr/v1/xfer", [], 0, [], false⟩,
    ⟨.get, ascii "/fr/v1/xfer/other", [], 0, [], false⟩,
    ⟨.get, ascii "/", [], 0, [], false⟩]

def daemonRun : List (Pool.Event Env HTTPRequest) :=
  inTurn sampleEnv daemonRequests

/-- The handlers answer what spells a route, at the router and at the shard. The root of the
transfer routes is redirected, which the shard does not know. -/
theorem filerelayd_refines_daemonRun :
    let tr := sampleDeployment.filerelayd.pool.trace (Server.idle newRelay) daemonRun
    let hosts := sampleDeployment.trace (daemonRun.map atHost)
    (∀ resp ∈ answers 0 tr, resp.schema ≠ none) ∧ (∀ resp ∈ answers 1 tr, resp.schema ≠ none) ∧
      answers 3 hosts = [notFound] ∧ answers 3 tr = (answers 3 hosts).map
        (sampleDeployment.fronted ⟨.get, ascii "/fr/v1/xfer", [], 0, [], false⟩) ∧
      ((List.range 6).map fun k => (answers k tr).map fun resp => (resp.status, resp.location)) =
        [[(200, none)], [(200, none)], [(307, some (ascii "/fr/v1/hello"))],
          [(307, some (ascii "/fr/v1/xfer/"))], [(404, none)], [(404, none)]] := by
  intro tr hosts
  obtain ⟨-, hall⟩ := filerelayd_refines sampleDeployment daemonRun
  obtain ⟨-, -, -, -, hregister⟩ := hall 0 _ rfl
  obtain ⟨-, -, -, -, hcreate⟩ := hall 1 _ rfl
  obtain ⟨-, -, -, hroot, -⟩ := hall 3 _ rfl
  exact ⟨fun resp hresp => (hregister resp hresp).1 ⟨.register, spells_of_path rfl⟩,
    fun resp hresp => (hcreate resp hresp).1 ⟨.create, spells_of_path rfl⟩, by decide +kernel,
    hroot, by decide +kernel⟩

end Deployment

end FileRelay

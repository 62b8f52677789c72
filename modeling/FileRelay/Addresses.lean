import FileRelay.Network
import FileRelay.Registration

/-!
# Addresses

The router tells a key the mailbox that belongs to it and a URL of the shard that registers the
mailbox (`Homes`). A resolve asks the shards one by one while registrations go on, and names another
URL than that of the owner only if the shard behind it has the mailbox, which is then the shard that
registers it (`homes_of_walked`).

A bridge passes on what the router says (`registered_of_does`, `resolved_of_resolve`), so all
bridges that ask about a key are sent to one shard.
-/

namespace FileRelay

open NanoPack (Codec layout)
open Pool (started history answers turns)
open Fallible

theorem owner_mem (H : Bytes → Digest) (mid : ID) {urls : List Bytes} (h : urls ≠ []) :
    owner H mid urls ∈ urls := by
  have hpos : 0 < urls.length := List.length_pos_iff.mpr h
  unfold owner
  rw [if_neg hpos.ne']
  dsimp only
  rw [List.getD_eq_getElem?_getD, List.getElem?_eq_getElem (Nat.mod_lt _ hpos), Option.getD_some]
  exact List.getElem_mem _

namespace Deployment

variable (d : Deployment)

/-- The URL is one of the shard that registers the mailbox. -/
def Homes (mid : ID) (url : Bytes) : Prop :=
  ∃ ref, d.router.findShard url = some ref ∧ d.HomeOf mid ref.store

variable {d} {es : List RelayEvent} {k : ℕ} {r : HTTPRequest} {resp : Response}

theorem homes_owner (hne : d.router.shards ≠ []) (mid : ID) :
    d.Homes mid (owner d.H mid d.router.shardURLs) := by
  have hurls : d.router.shardURLs ≠ [] := fun h => hne (List.map_eq_nil_iff.mp h)
  obtain ⟨ref, hmem, hurl⟩ := List.mem_map.mp (owner_mem d.H mid hurls)
  cases hfind : d.router.findShard (owner d.H mid d.router.shardURLs) with
  | none => exact absurd (decide_eq_true hurl) (List.find?_eq_none.mp hfind ref hmem)
  | some ref' => exact ⟨ref', hfind, ref', hfind, rfl⟩

/-- The walk of a resolve ends at the shard that registers the mailbox. -/
theorem homes_of_walked (hne : d.router.shards ≠ []) {mid : ID} {url : Bytes}
    (h : d.Walked (history k (d.trace es)) mid url) : d.Homes mid url := by
  rcases h with ⟨ref, hfind, hfound⟩ | ⟨rfl, -⟩
  · obtain ⟨h₀, h₁, hh⟩ := List.append_of_mem hfound
    obtain ⟨pre, env, hat, -⟩ := calls_of_history hh
    have hexists : mailboxExists ((d.run pre).object.stores ref.store) env.now mid = true :=
      hat.served.1.symm
    obtain ⟨mb, hmb, -⟩ := Router.mailboxExists_eq_true.mp hexists
    exact ⟨ref, hfind, (mailbox_authentic hmb).1⟩
  · exact homes_owner hne mid

/-- What the answer to a resolve says. -/
theorem read_resolve (hnp : d.np.Lawful) (hne : d.router.shards ≠ []) {q : Resolve}
    (hx : (started es)[k]? = some (.router, r)) (hasks : r.Asks d.np (.resolve q))
    (hresp : resp ∈ answers k (d.trace es)) (hstatus : resp.status = 200)
    (hfits : resp.body.length ≤ 1024) : ∃ url, d.Homes (d.mailboxOf q.clientPub) url ∧
      unmarshalResolveResponse d.np resp.body = .ok (d.located (d.mailboxOf q.clientPub) url) := by
  obtain ⟨x, hx', hrep⟩ := replied_run hnp hresp
  obtain rfl := Option.some.inj (hx.symm.trans hx')
  cases hrep with
  | failed e hcode => exact absurd (hcode.symm.trans hstatus) (Host.statusFor_ne _ e.code)
  | turned hx => exact absurd rfl hx
  | told reply ht _ _ hread =>
    generalize hh : history k (d.trace es) = h at ht
    cases ht with
    | hello now hroute => cases hasks.route.symm.trans hroute
    | registered hq => cases hasks.route.symm.trans hq.asks.route
    | table now hroute => cases hasks.route.symm.trans hroute
    | @resolved _ _ q' url hasks' hwalk =>
      cases asks_unique hasks hasks'
      exact ⟨url, homes_of_walked hne (hh ▸ hwalk), hread hfits⟩

/-- What the answer to a registration says. -/
theorem read_register (hnp : d.np.Lawful) (hne : d.router.shards ≠ []) {q : Register}
    (hx : (started es)[k]? = some (.router, r)) (hasks : r.Asks d.np (.register q))
    (hresp : resp ∈ answers k (d.trace es)) (hstatus : resp.status = 200)
    (hfits : resp.body.length ≤ 1024) : ∃ url now, ∃ secret : ByteArr 32,
      d.Homes (d.mailboxOf q.clientPub) url ∧ unmarshalRegisterResponse d.np resp.body =
        .ok (d.registered (d.mailboxOf q.clientPub) secret url now) := by
  obtain ⟨x, hx', hrep⟩ := replied_run hnp hresp
  obtain rfl := Option.some.inj (hx.symm.trans hx')
  cases hrep with
  | failed e hcode => exact absurd (hcode.symm.trans hstatus) (Host.statusFor_ne _ e.code)
  | turned hx => exact absurd rfl hx
  | told reply ht _ _ hread =>
    generalize hh : history k (d.trace es) = h at ht
    cases ht with
    | hello now hroute => cases hasks.route.symm.trans hroute
    | resolved hasks' => cases hasks.route.symm.trans hasks'.route
    | table now hroute => cases hasks.route.symm.trans hroute
    | @registered _ _ i q' now secret b hq hhome =>
      cases asks_unique hasks hq.asks
      exact ⟨_, now, secret, homes_owner hne _, hread hfits⟩

/-! ## Through a bridge -/

section Bridge

variable {js : BindingsJSON} {locate : Locate} {before : List RelayEvent} {s s' : Courier js}
  {w : CourierWorld s} {payload : Bytes}

/-- What the bridge resolves for a key. -/
theorem resolved_of_resolve (hnp : d.np.Lawful) (hne : d.router.shards ≠ [])
    (hw : d.Wired locate before es w) {pub routerURL url : Bytes} {mid : ID}
    (hat : RouterAt locate routerURL) (h : w.resolve d.np pub routerURL = .ok (mid, url)) :
    mid = d.mailboxOf pub ∧ d.Homes mid url := by
  obtain ⟨body, hbody, h⟩ := bind_eq_ok_iff.mp h
  obtain ⟨⟨st, raw⟩, hpost, h⟩ := bind_eq_ok_iff.mp h
  dsimp only at h
  split_ifs at h with hst
  obtain rfl : st = 200 := not_not.mp hst
  obtain ⟨res, hres, h⟩ := bind_eq_ok_iff.mp h
  cases h
  have hres := ofWire_eq_ok.mp hres
  have hlen := (unmarshal_eq_ok hres).1
  obtain ⟨k, r, resp, -, hx, hasks, hresp, hstatus, htake⟩ := answered_of_gets hnp hw
    (.resolve ⟨pub⟩) (hat .resolve (by decide)) trivial (ofWire_eq_ok.mp hbody)
    (mapError_eq_ok_iff.mp hpost)
  obtain rfl := eq_of_take htake (hlen.trans_lt (by decide))
  obtain ⟨url, hhomes, hread⟩ := read_resolve hnp hne hx hasks hresp hstatus hlen
  cases hres.symm.trans hread
  rw [show copyArr 16 (d.located (d.mailboxOf pub) url).mailboxID = d.mailboxOf pub from
    copyArr_self _]
  exact ⟨rfl, hhomes⟩

/-- What the bridge reports of a registration. -/
theorem registered_of_does (hnp : d.np.Lawful) (hne : d.router.shards ≠ [])
    (hw : d.Wired locate before es w) {op op' : UInt8} {mid secret url routerURL : Bytes}
    (hat : RouterAt locate routerURL)
    (h : Does d.H d.np w op payload s' (.registered op' mid secret url routerURL)) :
    ∃ q, w.Registers d.np payload op q ∧ mid = (d.mailboxOf q.clientPub).toList ∧
      d.Homes (d.mailboxOf q.clientPub) url := by
  cases h with
  | @registered _ _ _ body raw q res hq hbody hgets hres =>
    have hlen := (unmarshal_eq_ok hres).1
    obtain ⟨k, r, resp, -, hx, hasks, hresp, hstatus, htake⟩ := answered_of_gets hnp hw
      (.register q) (hat .register (by decide)) trivial hbody hgets
    obtain rfl := eq_of_take htake (hlen.trans_lt (by decide))
    obtain ⟨url, now, secret, hhomes, hread⟩ := read_register hnp hne hx hasks hresp hstatus hlen
    cases hres.symm.trans hread
    exact ⟨q, hq, rfl, hhomes⟩

end Bridge

end Deployment

end FileRelay

import FileRelay.Auth
import Mathlib.Data.List.DropRight

/-!
# Joining URLs

`joinURL` of the client adapter and `joinURL` of the bridge put a route behind a base URL that
may end in slashes. The bridge also takes a base that ends in the prefix of the API
(`Bridge.joinURL_normalises`), and the client does not : `joinURL_agree_iff` says that the two
agree on the other bases, and only on them.
-/

namespace FileRelay

/-- `apiPrefix`. -/
def apiRoot : Bytes := ascii "/fr/v1"

/-- `k` slashes. -/
def slashes (k : ℕ) : Bytes :=
  List.replicate k 47

/-- `strings.TrimRight(s, "/")`. -/
def trimSlashes (s : Bytes) : Bytes :=
  s.rdropWhile fun c => c == 47

/-- `strings.TrimPrefix(s, p)`. -/
def cutPrefix (s p : Bytes) : Bytes :=
  if p <+: s then s.drop p.length else s

/-- The route with a slash in front. -/
def rooted (route : Bytes) : Bytes :=
  if ascii "/" <+: route then route else ascii "/" ++ route

/-- `joinURL` of the client. -/
def Client.joinURL (base route : Bytes) : Bytes :=
  trimSlashes base ++ rooted route

/-- `joinURL` of the bridge. -/
def Bridge.joinURL (base route : Bytes) : Bytes :=
  let base := trimSlashes base
  let route := rooted route
  if apiRoot <:+ base ∧ (route = apiRoot ∨ apiRoot ++ ascii "/" <+: route) then
    base ++ cutPrefix route apiRoot
  else base ++ route

/-- Joining turns a base that is `b` with slashes behind it, or `b` with the prefix of the API
and slashes behind it, into `b` followed by the route. -/
def Normalises (join : Bytes → Bytes → Bytes) (base route : Bytes) : Prop :=
  ∀ b k, ¬ascii "/" <:+ b → ¬apiRoot <:+ b →
    base = b ++ slashes k ∨ base = b ++ apiRoot ++ slashes k → join base route = b ++ route

/-! ## Bases -/

theorem slash_suffix_iff {b : Bytes} : ascii "/" <:+ b ↔ ∃ hb : b ≠ [], b.getLast hb = 47 := by
  constructor
  · rintro ⟨t, rfl⟩
    exact ⟨by simp [ascii], by simp [ascii]⟩
  · rintro ⟨hb, hlast⟩
    have hb' := List.dropLast_concat_getLast hb
    rw [hlast] at hb'
    exact ⟨b.dropLast, hb'⟩

theorem trimSlashes_append {b : Bytes} (h : ¬ascii "/" <:+ b) :
    ∀ k, trimSlashes (b ++ slashes k) = b
  | 0 => by
    rw [slashes, List.replicate_zero, List.append_nil]
    refine List.rdropWhile_eq_self_iff.mpr fun hb hlast => h (slash_suffix_iff.mpr ⟨hb, ?_⟩)
    simpa using hlast
  | k + 1 => by
    rw [slashes, List.replicate_succ', ← List.append_assoc, trimSlashes,
      List.rdropWhile_concat_pos _ _ _ (by rfl)]
    exact trimSlashes_append h k

/-- A base is what `TrimRight` leaves of it and slashes. -/
theorem exists_slashes (base : Bytes) : ∃ k, base = trimSlashes base ++ slashes k := by
  refine ⟨(base.rtakeWhile fun c => c == 47).length, ?_⟩
  have htail : (base.rtakeWhile fun c => c == 47) =
      slashes (base.rtakeWhile fun c => c == 47).length := by
    refine List.eq_replicate_iff.mpr ⟨rfl, fun c hc => ?_⟩
    simpa using List.mem_rtakeWhile_imp hc
  rw [← htail, trimSlashes, List.rdropWhile_append_rtakeWhile]

/-- A base with the prefix of the API at its end does not end in a slash. -/
theorem not_slash_append_apiRoot (b : Bytes) : ¬ascii "/" <:+ b ++ apiRoot := by
  rw [slash_suffix_iff]
  rintro ⟨hne, hlast⟩
  rw [List.getLast_append_of_ne_nil hne (by decide)] at hlast
  exact absurd hlast (by decide)

theorem apiRoot_suffix_trim_iff {base : Bytes} :
    apiRoot <:+ trimSlashes base ↔ ∃ b k, base = b ++ apiRoot ++ slashes k := by
  constructor
  · rintro ⟨b, hb⟩
    obtain ⟨k, hk⟩ := exists_slashes base
    exact ⟨b, k, by rw [hb]; exact hk⟩
  · rintro ⟨b, k, rfl⟩
    rw [trimSlashes_append (not_slash_append_apiRoot b) k]
    exact ⟨b, rfl⟩

/-! ## Joining -/

section Join

variable {base route : Bytes}

/-- A route of the API starts with a slash. -/
theorem rooted_eq (h : apiRoot ++ ascii "/" <+: route) : rooted route = route :=
  if_pos (List.IsPrefix.trans ⟨ascii "fr/v1/", by decide⟩ h)

theorem Client.joinURL_eq (h : apiRoot ++ ascii "/" <+: route) :
    Client.joinURL base route = trimSlashes base ++ route := by
  rw [Client.joinURL, rooted_eq h]

theorem Bridge.joinURL_of_apiRoot (h : apiRoot ++ ascii "/" <+: route)
    (hbase : apiRoot <:+ trimSlashes base) :
    Bridge.joinURL base route = trimSlashes base ++ route.drop apiRoot.length := by
  rw [Bridge.joinURL, rooted_eq h, if_pos ⟨hbase, .inr h⟩, cutPrefix,
    if_pos ((List.prefix_append _ _).trans h)]

theorem Bridge.joinURL_of_not_apiRoot (h : apiRoot ++ ascii "/" <+: route)
    (hbase : ¬apiRoot <:+ trimSlashes base) :
    Bridge.joinURL base route = trimSlashes base ++ route := by
  rw [Bridge.joinURL, rooted_eq h, if_neg fun hif => hbase hif.1]

/-- The bridge takes both forms of a base. -/
theorem Bridge.joinURL_normalises (h : apiRoot ++ ascii "/" <+: route) :
    Normalises Bridge.joinURL base route := by
  rintro b k hslash hroot (rfl | rfl)
  · have htrim := trimSlashes_append hslash k
    rw [Bridge.joinURL_of_not_apiRoot h (by rwa [htrim]), htrim]
  · have htrim := trimSlashes_append (not_slash_append_apiRoot b) k
    obtain ⟨rest, rfl⟩ := (List.prefix_append apiRoot _).trans h
    rw [Bridge.joinURL_of_apiRoot h (by rw [htrim]; exact ⟨b, rfl⟩), htrim, List.drop_left,
      List.append_assoc]

/-- The client takes the bases that do not end in the prefix of the API. -/
theorem Client.joinURL_normalises (h : apiRoot ++ ascii "/" <+: route)
    (hbase : ¬∃ b k, base = b ++ apiRoot ++ slashes k) :
    Normalises Client.joinURL base route := by
  rintro b k hslash - (rfl | rfl)
  · rw [Client.joinURL_eq h, trimSlashes_append hslash k]
  · exact absurd ⟨b, k, rfl⟩ hbase

/-- For every base and every route of the API : the bridge normalises the base, and the client
agrees with it and normalises the base as well if and only if the base, its slashes apart,
does not end in the prefix of the API. -/
theorem joinURL_agree_iff (base route : Bytes) (h : ascii "/fr/v1/" <+: route) :
    Normalises Bridge.joinURL base route ∧
      (Client.joinURL base route = Bridge.joinURL base route ∧
          Normalises Client.joinURL base route ↔
        ¬∃ b k, base = b ++ apiRoot ++ slashes k) := by
  have hroute : apiRoot ++ ascii "/" <+: route := h
  refine ⟨Bridge.joinURL_normalises hroute, fun hagree hform => ?_, fun hbase => ?_⟩
  · -- The client keeps the six bytes of the prefix that the bridge cuts.
    have heq := congrArg List.length hagree.1
    rw [Client.joinURL_eq hroute,
      Bridge.joinURL_of_apiRoot hroute (apiRoot_suffix_trim_iff.mpr hform), List.length_append,
      List.length_append, List.length_drop] at heq
    have hlen : (apiRoot ++ ascii "/").length ≤ route.length := hroute.length_le
    have hroot : apiRoot.length = 6 := by decide
    rw [List.length_append] at hlen
    omega
  · refine ⟨?_, Client.joinURL_normalises hroute hbase⟩
    rw [Client.joinURL_eq hroute,
      Bridge.joinURL_of_not_apiRoot hroute fun hroot => hbase (apiRoot_suffix_trim_iff.mp hroot)]

end Join

theorem joinURL_agree_relay :
    Client.joinURL (ascii "http://h/relay//") (ascii "/fr/v1/send") =
        Bridge.joinURL (ascii "http://h/relay//") (ascii "/fr/v1/send") := by
  have hagree := joinURL_agree_iff (ascii "http://h/relay//") (ascii "/fr/v1/send") (by decide)
  have htrim : ¬apiRoot <:+ trimSlashes (ascii "http://h/relay//") := by decide
  exact (hagree.2.mpr fun hform => htrim (apiRoot_suffix_trim_iff.mpr hform)).1

/-- A base that the test table of the bridge has and that of the client lacks. -/
theorem joinURL_differ :
    Bridge.joinURL (ascii "http://127.0.0.1:8080/fr/v1/") (ascii "/fr/v1/register") =
        ascii "http://127.0.0.1:8080/fr/v1/register" ∧
      Client.joinURL (ascii "http://127.0.0.1:8080/fr/v1/") (ascii "/fr/v1/register") =
        ascii "http://127.0.0.1:8080/fr/v1/fr/v1/register" := by
  decide

end FileRelay

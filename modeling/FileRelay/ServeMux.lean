import Mathlib.Data.List.Basic
import Mathlib.Data.Nat.Notation

/-!
# The multiplexer of `net/http`

`http.ServeMux` for patterns without methods, hosts and wildcards. A pattern names one path or, with
a slash at its end, all paths below it. What is matched are the names between the slashes of the
escaped path, each of them unescaped (`segments`). A request for a path that is not clean is sent to
the clean one, and one for the root of a subtree without its slash to the root with it. `CONNECT`
requests are not cleaned.

`find_cases` says what becomes of a request. Only the root of a subtree is redirected to it
(`find_ne_slash`), and names that are matched are those of the unescaped path (`unescape_eq`).
-/

namespace ServeMux

/-! ## Paths -/

/-- The value of a hexadecimal digit. -/
def unhex (c : UInt8) : Option UInt8 :=
  if 48 ≤ c ∧ c ≤ 57 then some (c - 48)
  else if 97 ≤ c ∧ c ≤ 102 then some (c - 87)
  else if 65 ≤ c ∧ c ≤ 70 then some (c - 55)
  else none

/-- The byte that three bytes stand for, if they are an escape. -/
def escaped (c a b : UInt8) : Option UInt8 :=
  if c = 37 then (unhex a).bind fun x => (unhex b).map fun y => 16 * x + y else none

/-- `url.PathUnescape`. A percent sign that no two digits follow stays, no URL has one. -/
def unescape : List UInt8 → List UInt8
  | c :: a :: b :: rest =>
    match escaped c a b with
    | some v => v :: unescape rest
    | none => c :: unescape (a :: b :: rest)
  | short => short

/-- A name of a path on the way down, as `path.Clean` treats it. -/
def enter (dir : List (List UInt8)) (name : List UInt8) : List (List UInt8) :=
  if name = [] ∨ name = [46] then dir
  else if name = [46, 46] then dir.tail
  else name :: dir

/-- `cleanPath`. -/
def cleanPath (path : List UInt8) : List UInt8 :=
  let p := if path.head? = some 47 then path else 47 :: path
  let np := 47 :: [47].intercalate ((p.splitOn 47).foldl enter []).reverse
  if p.getLast? = some 47 ∧ np ≠ [47] then np ++ [47] else np

/-- The names of a path, `firstSegment` by `firstSegment`. That of a slash at the end is a slash. -/
def segments (path : List UInt8) : List (List UInt8) :=
  let names := (path.drop 1).splitOn 47
  if path.head? ≠ some 47 then []
  else if path.getLast? = some 47 then names.dropLast.map unescape ++ [[47]]
  else names.map unescape

/-! ## Patterns -/

structure Pattern where
  names : List (List UInt8)
  subtree : Bool
deriving DecidableEq, Repr

/-- `parsePattern`. -/
def parse (s : List UInt8) : Pattern :=
  let names := (s.drop 1).splitOn 47
  if s.getLast? = some 47 then ⟨names.dropLast.map unescape, true⟩
  else ⟨names.map unescape, false⟩

variable {α : Type}

/-- `routingNode.match` : the pattern of the path itself, or else that of the smallest subtree it is
in. -/
def lookup (mux : List (Pattern × α)) (names : List (List UInt8)) : Option (Pattern × α) :=
  (mux.find? fun e => e.1 = ⟨names, false⟩).or
    ((List.range names.length).reverse.findSome? fun n =>
      mux.find? fun e => e.1 = ⟨names.take n, true⟩)

/-- `exactMatch` : a subtree matches its root only. -/
def exactMatch (path : List UInt8) : Option (Pattern × α) → Bool
  | none => false
  | some e =>
    !e.1.subtree || (path.getLast? == some 47 && e.1.names.length + 1 == path.count 47)

/-- What becomes of a request. -/
inductive Found (α : Type)
  /-- It is passed on. -/
  | serve (a : α)
  /-- It is sent to the root of a subtree. -/
  | slash (target : List UInt8)
  /-- It is sent to the clean path. -/
  | clean (target : List UInt8)
  | unknown

/-- `findHandler`. -/
def find (mux : List (Pattern × α)) (connect : Bool) (path : List UInt8) : Found α :=
  let p := if connect then path else cleanPath path
  let n := lookup mux (segments p)
  if exactMatch p n = false ∧ p.getLast? ≠ some 47 ∧
      exactMatch (p ++ [47]) (lookup mux (segments (p ++ [47]))) = true then
    .slash (cleanPath (unescape path) ++ [47])
  else if p ≠ path then .clean p
  else
    match n with
    | some e => .serve e.2
    | none => .unknown

/-! ## Unescaping -/

theorem unhex_slash : unhex 47 = none := by decide

theorem escaped_slash (a b : UInt8) : escaped 47 a b = none := by
  unfold escaped
  rw [if_neg (by decide)]

theorem escaped_slash_left (c b : UInt8) : escaped c 47 b = none := by
  unfold escaped
  rw [unhex_slash, Option.bind_none, ite_self]

theorem escaped_slash_right (c a : UInt8) : escaped c a 47 = none := by
  unfold escaped
  rw [unhex_slash]
  split_ifs
  · cases unhex a <;> rfl
  · rfl

theorem unescape_slash_cons : ∀ ys : List UInt8, unescape (47 :: ys) = 47 :: unescape ys
  | [] => rfl
  | [_] => rfl
  | y :: z :: ys => by rw [unescape, escaped_slash]

/-- No escape goes over a slash. -/
theorem unescape_append (xs ys : List UInt8) :
    unescape (xs ++ 47 :: ys) = unescape xs ++ 47 :: unescape ys := by
  have hone : ∀ x, unescape (x :: 47 :: ys) = x :: 47 :: unescape ys := by
    intro x
    cases ys with
    | nil => rfl
    | cons y ys => rw [unescape, escaped_slash_left, ← unescape_slash_cons]
  fun_induction unescape xs with
  | case1 c a b rest v h ih =>
    rw [List.cons_append, List.cons_append, List.cons_append, unescape, h, ih]
    rfl
  | case2 c a b rest h ih =>
    rw [List.cons_append, List.cons_append, List.cons_append, unescape, h]
    exact congrArg (c :: ·) ih
  | case3 short hshort =>
    match short, hshort with
    | [], _ => exact unescape_slash_cons ys
    | [x], _ => exact hone x
    | [x, y], _ =>
      change unescape (x :: y :: 47 :: ys) = _
      rw [unescape, escaped_slash_right]
      exact congrArg (x :: ·) (hone y)
    | c :: a :: b :: rest, hshort => exact absurd rfl (hshort c a b rest)

theorem unescape_intercalate : ∀ names : List (List UInt8),
    unescape ([47].intercalate names) = [47].intercalate (names.map unescape)
  | [] => rfl
  | [name] => by simp
  | name :: name' :: names => by
    have ih := unescape_intercalate (name' :: names)
    rw [List.map_cons] at ih
    rw [List.intercalate_cons_cons, List.append_assoc, List.singleton_append, unescape_append, ih,
      List.map_cons, List.map_cons, List.intercalate_cons_cons, List.append_assoc,
      List.singleton_append]

/-! ## Names -/

/-- Names as the patterns have them. -/
def Plain (names : List (List UInt8)) : Prop :=
  names ≠ [] ∧ ∀ name ∈ names, 47 ∉ name

instance : DecidablePred Plain :=
  fun names => inferInstanceAs (Decidable (names ≠ [] ∧ ∀ name ∈ names, 47 ∉ name))

theorem not_plain_concat_slash (names : List (List UInt8)) : ¬Plain (names ++ [[47]]) :=
  fun h => h.2 [47] (List.mem_append_right _ (List.mem_singleton_self _))
    (List.mem_singleton_self 47)

/-- A path with plain names, unescaped. -/
theorem unescape_eq {path : List UInt8} (h : Plain (segments path)) :
    unescape path = 47 :: [47].intercalate (segments path) := by
  unfold segments at h ⊢
  dsimp only at h ⊢
  split_ifs at h ⊢ with hhead hlast
  · exact absurd rfl h.1
  · exact absurd h (not_plain_concat_slash _)
  · obtain ⟨rest, rfl⟩ := List.head?_eq_some_iff.mp (not_not.mp hhead)
    rw [unescape_slash_cons, ← unescape_intercalate, List.intercalate_splitOn]
    rfl

theorem length_splitOn (xs : List UInt8) : (xs.splitOn 47).length = xs.count 47 + 1 := by
  induction xs with
  | nil => rfl
  | cons x xs ih =>
    unfold List.splitOn at ih ⊢
    rw [List.splitOnP_cons_eq_if_modifyHead, List.count_cons]
    split_ifs with hx
    · rw [List.length_cons, ih]
    · rw [List.length_modifyHead, ih]

/-- A slash at the end is a name. -/
theorem segments_slash (rest : List UInt8) :
    segments (47 :: rest ++ [47]) = (rest.splitOn 47).map unescape ++ [[47]] := by
  have hsplit : (rest ++ [47]).splitOn 47 = rest.splitOn 47 ++ [[]] :=
    List.splitOnP_append_cons rest [] rfl
  unfold segments
  dsimp only
  rw [if_neg (by simp), if_pos List.getLast?_concat]
  change ((rest ++ [47]).splitOn 47).dropLast.map unescape ++ [[47]] = _
  rw [hsplit, List.dropLast_concat]

/-! ## Matching -/

section Find

variable {mux : List (Pattern × α)} {names : List (List UInt8)} {connect : Bool}
  {path : List UInt8}

theorem lookup_eq_some {e : Pattern × α} (h : lookup mux names = some e) :
    e ∈ mux ∧ (e.1 = ⟨names, false⟩ ∨ ∃ n < names.length, e.1 = ⟨names.take n, true⟩) := by
  unfold lookup at h
  rcases Option.or_eq_some_iff.mp h with h | ⟨-, h⟩
  · have hp := List.find?_some h
    exact ⟨List.mem_of_find?_eq_some h, .inl (of_decide_eq_true hp)⟩
  · obtain ⟨n, hn, h⟩ := List.exists_of_findSome?_eq_some h
    have hp := List.find?_some h
    rw [List.mem_reverse, List.mem_range] at hn
    exact ⟨List.mem_of_find?_eq_some h, .inr ⟨n, hn, of_decide_eq_true hp⟩⟩

/-- The path is looked up as it is. -/
def Stays (connect : Bool) (path : List UInt8) : Prop :=
  connect = true ∨ cleanPath path = path

/-- A request is sent to a subtree or to the clean path, or its names decide. -/
theorem find_cases (mux : List (Pattern × α)) (connect : Bool) (path : List UInt8) :
    (∃ target, find mux connect path = .slash target) ∨
    (¬Stays connect path ∧ find mux connect path = .clean (cleanPath path)) ∨
    Stays connect path ∧ find mux connect path =
      match lookup mux (segments path) with
      | some e => .serve e.2
      | none => .unknown := by
  unfold find Stays
  dsimp only
  split_ifs with hconnect hslash hclean hslash hclean
  · exact .inl ⟨_, rfl⟩
  · exact absurd rfl hclean
  · exact .inr (.inr ⟨.inl hconnect, rfl⟩)
  · exact .inl ⟨_, rfl⟩
  · exact .inr (.inl ⟨fun h => h.elim hconnect hclean, rfl⟩)
  · rw [not_not.mp hclean]
    exact .inr (.inr ⟨.inr rfl, rfl⟩)

theorem count_of_exactMatch {path : List UInt8} {e : Pattern × α} (hsub : e.1.subtree = true)
    (h : exactMatch path (some e) = true) : e.1.names.length + 1 = path.count 47 := by
  unfold exactMatch at h
  dsimp only at h
  rw [hsub, Bool.not_true, Bool.false_or, Bool.and_eq_true, beq_iff_eq, beq_iff_eq] at h
  exact h.2

/-- A plain pattern that matches a path with a slash added exactly is the subtree of the path. -/
theorem eq_root {p : List UInt8} {e : Pattern × α}
    (h : e.1 = ⟨segments (p ++ [47]), false⟩ ∨
      ∃ n < (segments (p ++ [47])).length, e.1 = ⟨(segments (p ++ [47])).take n, true⟩)
    (hplain : Plain e.1.names) (hlast : p.getLast? ≠ some 47)
    (hexact : exactMatch (p ++ [47]) (some e) = true) : e = (⟨segments p, true⟩, e.2) := by
  by_cases hhead : p.head? = some 47
  · obtain ⟨rest, rfl⟩ := List.head?_eq_some_iff.mp hhead
    rw [segments_slash] at h
    rcases h with h | ⟨n, hn, h⟩
    · rw [h] at hplain
      exact absurd hplain (not_plain_concat_slash _)
    · -- There is a name for each slash.
      have hcount := count_of_exactMatch (by rw [h]) hexact
      rw [h, List.length_take_of_le (Nat.le_of_lt hn), List.count_append, List.count_cons_self,
        ← length_splitOn, List.count_singleton_self] at hcount
      obtain rfl : n = ((rest.splitOn 47).map unescape).length := by
        rw [List.length_map]
        exact Nat.succ.inj hcount
      rw [List.take_left] at h
      have hsegments : segments (47 :: rest) = (rest.splitOn 47).map unescape := by
        unfold segments
        dsimp only
        rw [if_neg (by simp), if_neg hlast]
        rfl
      rw [hsegments, ← h]
  · have hnames : segments (p ++ [47]) = [] ∨ segments (p ++ [47]) = [[47]] := by
      cases p with
      | nil => exact .inr rfl
      | cons c rest => exact .inl (if_pos hhead)
    rcases hnames with hnames | hnames
    all_goals rw [hnames] at h
    · rcases h with h | ⟨n, hn, -⟩
      · exact absurd (congrArg Pattern.names h) hplain.1
      · exact absurd hn (Nat.not_lt_zero n)
    · rcases h with h | ⟨n, hn, h⟩
      · rw [h] at hplain
        exact absurd hplain (not_plain_concat_slash [])
      · obtain rfl : n = 0 := Nat.lt_one_iff.mp hn
        exact absurd (congrArg Pattern.names h) hplain.1

/-- Only the root of a subtree is redirected to it. -/
theorem find_ne_slash (hmux : ∀ e ∈ mux, Plain e.1.names)
    (hroot : ∀ a, (⟨segments (if connect then path else cleanPath path), true⟩, a) ∉ mux)
    (target : List UInt8) : find mux connect path ≠ .slash target := by
  unfold find
  dsimp only
  generalize (if connect = true then path else cleanPath path) = p at hroot ⊢
  split_ifs with hslash
  · obtain ⟨-, hlast, hexact⟩ := hslash
    exfalso
    cases hlook : lookup mux (segments (p ++ [47])) with
    | none =>
      rw [hlook] at hexact
      cases hexact
    | some e =>
      obtain ⟨hmem, hp⟩ := lookup_eq_some hlook
      have hplain := hmux e hmem
      rw [hlook] at hexact
      exact hroot e.2 (eq_root hp hplain hlast hexact ▸ hmem)
  · exact fun h => nomatch h
  · split <;> exact fun h => nomatch h

end Find

end ServeMux

import FileRelay.Prefixed
import FileRelay.RequestCodec
import FileRelay.SignedBytes

/-!
# The routing table

The router signs its list of shards. `CanonicalRoutingTable` puts the digest of the list under
the signature, `MarshalRoutingTable` the list itself into a field, and each of the two has its
own encoder for it. Both write every URL behind its length in two bytes (`encodeShardList_eq`,
`sha256ShardList_eq`), and `decodeShardList` goes by the same prefix.

`routing_table_signature` says that a table survives the wire with the bytes it was signed
over, and that these bytes pin the table.
-/

namespace FileRelay

open NanoPack (Field Codec layout)

def domainRoutingTable : Bytes := ascii "FR1/ROUTING-TABLE" ++ [0]
def routingTableTTLSeconds : ℤ := 3600
def routingAlgoSHA256ModN : UInt8 := 1

/-- `RoutingTable`, schema 56. -/
structure RoutingTable where
  version : UInt32
  generatedAt : UInt64
  expiresAt : UInt64
  algorithm : UInt8
  shards : List Bytes
  replicationFactor : UInt32
  routerPub : Bytes
  signature : Bytes
deriving DecidableEq, Repr

/-! ## The list of shards -/

/-- `byte(len(b)>>8), byte(len(b))`. -/
def lenBytes (b : Bytes) : Bytes :=
  [UInt8.ofNat (b.length >>> 8), UInt8.ofNat b.length]

/-- `encodeShardList`. -/
def encodeShardList (shards : List Bytes) : Bytes :=
  shards.flatMap fun b => lenBytes b ++ b

/-- `decodeShardList`. -/
def decodeShardList : Bytes → Wire (List Bytes)
  | [] => .ok []
  | [_] => .error (.nanopack .shortBody)
  | hi :: lo :: rest =>
    let n := hi.toNat <<< 8 ||| lo.toNat
    if n ≤ 0 ∨ rest.length < n then .error (.nanopack .shortBody)
    else (decodeShardList (rest.drop n)).map fun out => rest.take n :: out
termination_by blob => blob.length
decreasing_by
  simp only [List.length_drop, List.length_cons]
  omega

/-- `Sha256ShardList` : what is written to the hash, URL by URL, is hashed at the end. -/
def sha256ShardList (H : Bytes → Digest) (shards : List Bytes) : Digest :=
  H (shards.foldl (fun written b => written ++ lenBytes b ++ b) [])

/-- The URLs a list can carry : of 1 to 65535 bytes. -/
def ShardURLs (shards : List Bytes) : Prop :=
  ∀ s ∈ shards, 1 ≤ s.length ∧ s.length ≤ 65535

theorem lenBytes_eq (b : Bytes) : lenBytes b = beBytes 2 b.length := by
  simp [lenBytes, beBytes, Nat.shiftRight_eq_div_pow]

theorem encodeShardList_eq (shards : List Bytes) :
    encodeShardList shards = Prefixed.encode 2 shards := by
  unfold encodeShardList Prefixed.encode Prefixed.entry
  simp only [lenBytes_eq]

/-- The streamed encoding is the one on the wire. -/
theorem sha256ShardList_eq (H : Bytes → Digest) (shards : List Bytes) :
    sha256ShardList H shards = H (encodeShardList shards) := by
  have hfold : ∀ (shards : List Bytes) (written : Bytes),
      shards.foldl (fun written b => written ++ lenBytes b ++ b) written =
        written ++ encodeShardList shards := by
    intro shards
    induction shards with
    | nil => intro written; simp [encodeShardList]
    | cons b shards ih =>
      intro written
      rw [List.foldl_cons, ih]
      simp [encodeShardList]
  unfold sha256ShardList
  rw [hfold, List.nil_append]

/-- One step of `decodeShardList` cuts one URL off. -/
theorem decodeShardList_eq {blob : Bytes} (h : blob ≠ []) : decodeShardList blob =
    match Prefixed.cut 2 blob with
    | none => .error (.nanopack .shortBody)
    | some (s, rest) =>
      if s = [] then .error (.nanopack .shortBody)
      else (decodeShardList rest).map fun out => s :: out := by
  match blob with
  | [] => exact absurd rfl h
  | [b] => rw [decodeShardList]; rfl
  | hi :: lo :: rest =>
    have hn : hi.toNat <<< 8 ||| lo.toNat = beNat [hi, lo] := by
      rw [← Nat.shiftLeft_add_eq_or_of_lt lo.toNat_lt, Nat.shiftLeft_eq]
      simp [beNat]
    have htake : (hi :: lo :: rest).take 2 = [hi, lo] := rfl
    have hdrop : ∀ n, (hi :: lo :: rest).drop (2 + n) = rest.drop n := by
      intro n
      rw [Nat.add_comm]
      rfl
    rw [decodeShardList, hn]
    unfold Prefixed.cut
    rw [htake, hdrop]
    have hlen : (hi :: lo :: rest).length = 2 + rest.length := by
      simp only [List.length_cons]
      omega
    rw [hlen, if_neg (show ¬2 + rest.length < 2 by omega)]
    generalize beNat [hi, lo] = n
    by_cases hshort : rest.length < n
    · rw [if_pos (Or.inr hshort), if_pos (by omega)]
    · rw [if_neg (show ¬2 + rest.length < 2 + n by omega)]
      change _ = if rest.take n = [] then _ else _
      by_cases hzero : n = 0
      · rw [if_pos (Or.inl (Nat.le_zero.mpr hzero)), if_pos (by rw [hzero]; rfl)]
      · have hne : rest.take n ≠ [] := by
          apply List.length_pos_iff.mp
          rw [List.length_take]
          omega
        rw [if_neg (by omega), if_neg hne]
        rfl

/-- `decodeShardList` inverts `encodeShardList`. -/
theorem decodeShardList_encodeShardList : ∀ {shards : List Bytes}, ShardURLs shards →
    decodeShardList (encodeShardList shards) = .ok shards
  | [], _ => by
    unfold encodeShardList
    rw [List.flatMap_nil, decodeShardList]
  | s :: shards, h => by
    obtain ⟨hpos, hmax⟩ := h s List.mem_cons_self
    have ih := decodeShardList_encodeShardList fun s' hs' => h s' (List.mem_cons_of_mem s hs')
    rw [encodeShardList_eq] at ih ⊢
    have hcut : Prefixed.cut 2 (Prefixed.encode 2 (s :: shards)) =
        some (s, Prefixed.encode 2 shards) := Prefixed.cut_eq_some.mpr ⟨by omega, rfl⟩
    have hne : Prefixed.encode 2 (s :: shards) ≠ [] := by
      intro h0
      have := congrArg List.length h0
      rw [Prefixed.encode_cons, List.length_append, Prefixed.length_entry, List.length_nil] at this
      omega
    have hs : s ≠ [] := List.length_pos_iff.mp hpos
    rw [decodeShardList_eq hne, hcut]
    simp only [hs, if_false, ih]
    rfl

/-- What `decodeShardList` accepts re-encodes to itself. -/
theorem encodeShardList_of_decode (blob : Bytes) : ∀ {shards : List Bytes},
    decodeShardList blob = .ok shards → encodeShardList shards = blob ∧ ShardURLs shards := by
  induction hlen : blob.length using Nat.strong_induction_on generalizing blob with
  | _ n ih =>
    intro shards h
    by_cases hne : blob = []
    · subst hne
      rw [decodeShardList] at h
      cases h
      exact ⟨rfl, nofun⟩
    · rw [decodeShardList_eq hne] at h
      rcases hcut : Prefixed.cut 2 blob with _ | ⟨s, rest⟩
      · rw [hcut] at h
        cases h
      · rw [hcut] at h
        dsimp only at h
        split_ifs at h with hs
        rcases hrest : decodeShardList rest with e | out
        · rw [hrest] at h
          cases h
        · rw [hrest] at h
          cases h
          obtain ⟨hlt, rfl⟩ := Prefixed.cut_eq_some.mp hcut
          obtain ⟨henc, hurls⟩ := ih rest.length
            (hlen ▸ Prefixed.length_cut_lt (by decide) hcut) rest rfl hrest
          refine ⟨?_, fun s' hs' => ?_⟩
          · rw [encodeShardList_eq] at henc ⊢
            rw [Prefixed.encode_cons, henc]
          · rcases List.mem_cons.mp hs' with rfl | hs'
            · exact ⟨List.length_pos_iff.mpr hs, by omega⟩
            · exact hurls s' hs'

/-! ## Schema 56 -/

def RoutingTable.fields (t : RoutingTable) : List Field :=
  [⟨1, putU32 t.version⟩, ⟨2, putU64 t.generatedAt⟩, ⟨3, putU64 t.expiresAt⟩, ⟨4, [t.algorithm]⟩,
    ⟨5, encodeShardList t.shards⟩, ⟨6, putU32 t.replicationFactor⟩, ⟨7, t.routerPub⟩,
    ⟨8, t.signature⟩]

/-- The check of `MarshalRoutingTable` and `UnmarshalRoutingTable`. -/
def RoutingTable.check (t : RoutingTable) : Wire Unit :=
  rejectIf (t.routerPub.length ≠ 32 ∨ t.signature.length ≠ 64 ∨ t.shards.length = 0)
    .invalidRequest "bad routing table"

/-- `MarshalRoutingTable`. -/
def marshalRoutingTable (np : Codec) (t : RoutingTable) : Wire Bytes := do
  t.check
  encodeFields np t.fields

/-- The `switch` of `UnmarshalRoutingTable`. -/
def RoutingTable.set (out : RoutingTable) (f : Field) : Wire RoutingTable :=
  if f.id = 1 then (fieldU32 f.data).map fun v => { out with version := v }
  else if f.id = 2 then (fieldU64 f.data).map fun v => { out with generatedAt := v }
  else if f.id = 3 then (fieldU64 f.data).map fun v => { out with expiresAt := v }
  else if f.id = 4 then (fieldU8 f.data).map fun v => { out with algorithm := v }
  else if f.id = 5 then (decodeShardList f.data).map fun v => { out with shards := v }
  else if f.id = 6 then (fieldU32 f.data).map fun v => { out with replicationFactor := v }
  else if f.id = 7 then .ok { out with routerPub := f.data }
  else if f.id = 8 then .ok { out with signature := f.data }
  else .ok out

/-- `UnmarshalRoutingTable`. -/
def unmarshalRoutingTable (np : Codec) (body : Bytes) : Wire RoutingTable :=
  unmarshal np 8192 RoutingTable.set ⟨0, 0, 0, 0, [], 0, [], []⟩ RoutingTable.check body

theorem RoutingTable.check_eq_ok {t : RoutingTable} {u : Unit} : t.check = .ok u ↔
    t.routerPub.length = 32 ∧ t.signature.length = 64 ∧ t.shards ≠ [] := by
  unfold RoutingTable.check
  rw [rejectIf_eq_ok]
  simp only [not_or, not_not, List.length_eq_zero_iff, ne_eq]

/-- A body within the limit decodes to the table it was made from. -/
theorem unmarshalRoutingTable_marshal {np : Codec} (hnp : np.Lawful) {t : RoutingTable}
    {body : Bytes} (hurls : ShardURLs t.shards) (hm : marshalRoutingTable np t = .ok body)
    (hlen : body.length ≤ 8192) : unmarshalRoutingTable np body = .ok t := by
  have hfs : t.fields.length ≤ 255 := by simp [RoutingTable.fields]
  obtain ⟨⟨⟩, hcheck, hbody⟩ := wire_bind_eq_ok.mp hm
  rw [encodeFields_eq hnp hfs] at hbody
  cases hbody
  unfold unmarshalRoutingTable
  rw [unmarshal_layout hnp hfs ?_ hcheck]
  · exact checkBodyLen_map_eq_ok.mpr ⟨hlen, rfl⟩
  · have hshards := decodeShardList_encodeShardList hurls
    simp only [RoutingTable.fields, List.foldlM_cons, List.foldlM_nil, RoutingTable.set,
      fieldU32_putU32, fieldU64_putU64, hshards]
    rfl

/-- The URLs of an accepted table. -/
theorem shardURLs_of_unmarshal {np : Codec} {body : Bytes} {t : RoutingTable}
    (h : unmarshalRoutingTable np body = .ok t) : ShardURLs t.shards ∧ t.check = .ok () := by
  obtain ⟨-, fs, -, hset, hcheck⟩ := unmarshal_eq_ok h
  refine ⟨?_, hcheck⟩
  refine foldlM_ok_induction (P := fun t : RoutingTable => ShardURLs t.shards) fs ?_
    (fun _ hs => absurd hs List.not_mem_nil) hset
  intro f _ out out' hout hf
  simp only [RoutingTable.set, switch_eq_ok, wire_map_eq_ok, Except.ok.injEq] at hf
  rcases hf with ⟨-, v, -, rfl⟩ | ⟨-, ⟨-, v, -, rfl⟩ | ⟨-, ⟨-, v, -, rfl⟩ | ⟨-, ⟨-, v, -, rfl⟩ |
      ⟨-, ⟨-, v, hv, rfl⟩ | ⟨-, ⟨-, v, -, rfl⟩ | ⟨-, ⟨-, rfl⟩ | ⟨-, ⟨-, rfl⟩ | ⟨-, rfl⟩⟩⟩⟩⟩⟩⟩⟩
  all_goals first
    | exact hout
    | exact (encodeShardList_of_decode f.data hv).2

/-! ## The signed bytes -/

variable (H : Bytes → Digest)

/-- `CanonicalRoutingTable`. -/
def canonicalRoutingTable (version : UInt32) (generated expires : UInt64) (algo : UInt8)
    (shards : List Bytes) (routerPub : ByteArr 32) : Bytes :=
  domainRoutingTable ++ putU32 version ++ putU64 generated ++ putU64 expires ++ [algo] ++
    (sha256ShardList H shards).toList ++ routerPub.toList

/-- `CanonicalRoutingTable` of the fields of a decoded table. -/
def RoutingTable.canonical (t : RoutingTable) : Bytes :=
  canonicalRoutingTable H t.version t.generatedAt t.expiresAt t.algorithm t.shards
    (copyArr 32 t.routerPub)

/-- The table `handleTable` makes at a clock reading. `sign` is `ed25519.Sign` under the
router's key. -/
def routerTable (sign : Bytes → Bytes) (version : UInt32) (pub : ByteArr 32) (urls : List Bytes)
    (now : ℤ) : RoutingTable where
  version := version
  generatedAt := UInt64.ofInt now
  expiresAt := UInt64.ofInt (now + routingTableTTLSeconds * 1000)
  algorithm := routingAlgoSHA256ModN
  shards := urls
  replicationFactor := 1
  routerPub := pub.toList
  signature := sign (canonicalRoutingTable H version (UInt64.ofInt now)
    (UInt64.ofInt (now + routingTableTTLSeconds * 1000)) routingAlgoSHA256ModN urls pub)

/-- `handleTable`, on a `GET` or `POST`. -/
def handleTable (np : Codec) (sign : Bytes → Bytes) (version : UInt32) (pub : ByteArr 32)
    (urls : List Bytes) (now : ℤ) : Wire Bytes := do
  rejectIf (urls.length = 0) .serverUnavailable "no shards"
  marshalRoutingTable np (routerTable H sign version pub urls now)

/-- The signature of a table covers the fields its bytes are made of. -/
theorem canonical_pins_table {t t' : RoutingTable} (ht : t.routerPub.length = 32)
    (ht' : t'.routerPub.length = 32) (hurls : ShardURLs t.shards) (hurls' : ShardURLs t'.shards)
    (hfree : H (encodeShardList t.shards) = H (encodeShardList t'.shards) →
      encodeShardList t.shards = encodeShardList t'.shards)
    (h : t.canonical H = t'.canonical H) :
    t.version = t'.version ∧ t.generatedAt = t'.generatedAt ∧ t.expiresAt = t'.expiresAt ∧
      t.algorithm = t'.algorithm ∧ t.routerPub = t'.routerPub ∧ t.shards = t'.shards := by
  have hvec (v : ByteArr 32) : v.toList.length = 32 := v.toList_length
  obtain ⟨h, hpub⟩ := last_field 32 h (hvec _) (hvec _)
  obtain ⟨h, hhash⟩ := last_field 32 h (hvec _) (hvec _)
  obtain ⟨h, halgo⟩ := last_field 1 h rfl rfl
  obtain ⟨h, hexp⟩ := last_field 8 h (length_putU64 _) (length_putU64 _)
  obtain ⟨h, hgen⟩ := last_field 8 h (length_putU64 _) (length_putU64 _)
  obtain ⟨-, hver⟩ := last_field 4 h (length_putU32 _) (length_putU32 _)
  have hdigest := List.Vector.eq _ _ hhash
  rw [sha256ShardList_eq, sha256ShardList_eq] at hdigest
  have hshards := decodeShardList_encodeShardList hurls
  rw [hfree hdigest, decodeShardList_encodeShardList hurls'] at hshards
  exact ⟨putU32_inj hver, putU64_inj hgen, putU64_inj hexp, List.singleton_inj.mp halgo,
    copyArr_toList_inj ht ht' hpub, (Except.ok.inj hshards).symm⟩

/-- The routing table on the wire and under its signature. A table with URLs of 1 to 65535
bytes whose body is within the limit of the decoder is read back, and the bytes recomputed
from what was read are those the router signed ; accepted tables with the same bytes agree on
all that the bytes are made of, as long as their shard lists do not collide ; the parser of the
list inverts its encoder both ways, and the digest is that of the encoding. -/
theorem routing_table_signature (np : Codec) (hnp : np.Lawful) (H : Bytes → Digest) :
    (∀ t body, ShardURLs t.shards → marshalRoutingTable np t = .ok body → body.length ≤ 8192 →
      ∃ t', unmarshalRoutingTable np body = .ok t' ∧ t'.canonical H = t.canonical H ∧ t' = t) ∧
    (∀ sign version pub urls now body, ShardURLs urls →
      handleTable H np sign version pub urls now = .ok body → body.length ≤ 8192 →
      ∃ t', unmarshalRoutingTable np body = .ok t' ∧ t'.routerPub = pub.toList ∧
        t'.signature = sign (t'.canonical H)) ∧
    (∀ body body' t t', unmarshalRoutingTable np body = .ok t →
      unmarshalRoutingTable np body' = .ok t' →
      (H (encodeShardList t.shards) = H (encodeShardList t'.shards) →
        encodeShardList t.shards = encodeShardList t'.shards) →
      t.canonical H = t'.canonical H →
      t.version = t'.version ∧ t.generatedAt = t'.generatedAt ∧ t.expiresAt = t'.expiresAt ∧
        t.algorithm = t'.algorithm ∧ t.routerPub = t'.routerPub ∧ t.shards = t'.shards) ∧
    (∀ shards, ShardURLs shards → decodeShardList (encodeShardList shards) = .ok shards) ∧
    (∀ blob shards, decodeShardList blob = .ok shards → encodeShardList shards = blob) ∧
    ∀ shards, sha256ShardList H shards = H (encodeShardList shards) := by
  refine ⟨?_, ?_, ?_, fun shards h => decodeShardList_encodeShardList h,
    fun blob shards h => (encodeShardList_of_decode blob h).1, sha256ShardList_eq H⟩
  · intro t body hurls hm hlen
    exact ⟨t, unmarshalRoutingTable_marshal hnp hurls hm hlen, rfl, rfl⟩
  · intro sign version pub urls now body hurls hm hlen
    obtain ⟨_, -, hm⟩ := wire_bind_eq_ok.mp hm
    refine ⟨_, unmarshalRoutingTable_marshal hnp hurls hm hlen, rfl, ?_⟩
    unfold RoutingTable.canonical routerTable
    dsimp only
    rw [copyArr_self]
  · intro body body' t t' ht ht' hfree h
    obtain ⟨hurls, hcheck⟩ := shardURLs_of_unmarshal ht
    obtain ⟨hurls', hcheck'⟩ := shardURLs_of_unmarshal ht'
    exact canonical_pins_table H (RoutingTable.check_eq_ok.mp hcheck).1
      (RoutingTable.check_eq_ok.mp hcheck').1 hurls hurls' hfree h

/-- A table with two URLs. -/
def sampleTable : RoutingTable where
  version := 1
  generatedAt := 1750000000000
  expiresAt := 1750003600000
  algorithm := 1
  shards := [[115, 49], [115, 50, 48]]
  replicationFactor := 1
  routerPub := List.replicate 32 7
  signature := List.replicate 64 9

theorem routing_table_signature_sampleTable :
    ∃ body t', marshalRoutingTable NanoPack.reference sampleTable = .ok body ∧
      unmarshalRoutingTable NanoPack.reference body = .ok t' ∧
      t'.canonical (copyArr 32) = sampleTable.canonical (copyArr 32) ∧ t' = sampleTable := by
  have hlen : (layout sampleTable.fields).length ≤ 8192 :=
    NanoPack.length_layout_le (by decide) (by decide)
  have hm : marshalRoutingTable NanoPack.reference sampleTable = .ok (layout sampleTable.fields) :=
    rfl
  have hurls : ShardURLs sampleTable.shards := by
    unfold ShardURLs
    decide
  obtain ⟨t', h⟩ := (routing_table_signature NanoPack.reference NanoPack.reference_lawful
    (copyArr 32)).1 sampleTable _ hurls hm hlen
  exact ⟨_, t', hm, h⟩

end FileRelay

import FileRelay.Buffers
import FileRelay.GoMap
import FileRelay.Utf16
import Mathlib.Data.List.Forall2

/-!
# The package writer

`zip` of `transports/tools/ntx.mjs` writes the `.ntx` packages, and `unzip` of the package
test reads them. Each member has a local header before its bytes and a copy of it in the
central directory, with the offset of the first, and the record at the end points at the
directory. `deflate` and `inflate` are the runtime's, and a call that throws is `none`.

`zip_archived` says where the records of a written package lie, and
`package_reproducible` what follows : a reader finds every member, the two headers of a
member agree, and the order of the input does not matter. A name goes into the package as
UTF-8, where a lone surrogate has no spelling (`lone_surrogate_lost`).
-/

namespace FileRelay

open NodeBuffer JSString

/-! ## Checksums -/

/-- `c & 1 ? 0xedb88320 ^ (c >>> 1) : c >>> 1`. -/
def crcShift (c : UInt32) : UInt32 :=
  if c &&& 1 ≠ 0 then (0xedb88320 : UInt32) ^^^ (c >>> 1) else c >>> 1

/-- `crcTable[n]`. -/
def crcTable (n : UInt32) : UInt32 :=
  crcShift^[8] n

/-- `crc32`. -/
def crc32 (b : Bytes) : UInt32 :=
  b.foldl (fun c x => crcTable ((c ^^^ x.toUInt32) &&& 255) ^^^ (c >>> 8)) 0xffffffff ^^^
    0xffffffff

/-! ## Writing -/

/-- A file under its name. -/
abbrev PackageFile := JSString × Bytes

/-- What `zip` derives from a file : the bytes of its name, its data, and the body that is
stored with its method. -/
structure Member where
  name : Bytes
  data : Bytes
  method : ℕ
  body : Bytes

/-- The first lines of the loop of `zip` : the deflated bytes if they are fewer. -/
def pack (deflate : Bytes → Bytes) (f : PackageFile) : Member :=
  if (deflate f.2).length < f.2.length then ⟨toUtf8 f.1, f.2, 8, deflate f.2⟩
  else ⟨toUtf8 f.1, f.2, 0, f.2⟩

def dosTime : ℕ := 0
def dosDate : ℕ := 0 <<< 9 ||| 1 <<< 5 ||| 1

/-- `lh`. -/
def localHeader (m : Member) : Option Bytes :=
  writeAll [⟨4, 0x04034b50, 0⟩, ⟨2, 20, 4⟩, ⟨2, 0x0800, 6⟩, ⟨2, m.method, 8⟩, ⟨2, dosTime, 10⟩,
    ⟨2, dosDate, 12⟩, ⟨4, (crc32 m.data).toNat, 14⟩, ⟨4, m.body.length, 18⟩,
    ⟨4, m.data.length, 22⟩, ⟨2, m.name.length, 26⟩] (alloc 30)

/-- `ch`. -/
def centralHeader (m : Member) (off : ℕ) : Option Bytes :=
  writeAll [⟨4, 0x02014b50, 0⟩, ⟨2, 0x031e, 4⟩, ⟨2, 20, 6⟩, ⟨2, 0x0800, 8⟩, ⟨2, m.method, 10⟩,
    ⟨2, dosTime, 12⟩, ⟨2, dosDate, 14⟩, ⟨4, (crc32 m.data).toNat, 16⟩, ⟨4, m.body.length, 20⟩,
    ⟨4, m.data.length, 24⟩, ⟨2, m.name.length, 28⟩, ⟨4, 0o100644 <<< 16, 38⟩, ⟨4, off, 42⟩]
    (alloc 46)

/-- `end`. -/
def endRecord (count size off : ℕ) : Option Bytes :=
  writeAll [⟨4, 0x06054b50, 0⟩, ⟨2, count, 8⟩, ⟨2, count, 10⟩, ⟨4, size, 12⟩, ⟨4, off, 16⟩]
    (alloc 22)

/-- `parts`, `central` and `off`. -/
structure ZipState where
  parts : Bytes
  central : Bytes
  off : ℕ

/-- One turn of the loop of `zip`. -/
def addMember (deflate : Bytes → Bytes) (st : ZipState) (f : PackageFile) : Option ZipState := do
  let m := pack deflate f
  let lh ← localHeader m
  let ch ← centralHeader m st.off
  return ⟨st.parts ++ (lh ++ (m.name ++ m.body)), st.central ++ (ch ++ m.name),
    st.off + (30 + m.name.length + m.body.length)⟩

/-- `a[0] < b[0] ? -1 : 1`. -/
def compareNames (a b : PackageFile) : ℤ :=
  if a.1 < b.1 then -1 else 1

/-- `[...files].sort(compare)` : a file goes before an earlier one if it compares below it. -/
def sortFiles (files : List PackageFile) : List PackageFile :=
  files.mergeSort fun a b => !decide (compareNames b a < 0)

/-- `zip`. -/
def zip (deflate : Bytes → Bytes) (files : List PackageFile) : Option Bytes := do
  let st ← (sortFiles files).foldlM (addMember deflate) ⟨[], [], 0⟩
  let tail ← endRecord files.length st.central.length st.off
  return st.parts ++ (st.central ++ tail)

/-! ## Reading -/

/-- The search for the record at the end, from `e` downwards. -/
def findEnd (buf : Bytes) : ℕ → Option ℕ
  | 0 => if readUInt 4 buf 0 = some 0x06054b50 then some 0 else none
  | e + 1 => if readUInt 4 buf (e + 1) = some 0x06054b50 then some (e + 1) else findEnd buf e

/-- `files[name] = data` : an assignment to `__proto__` makes no property. -/
def assignFile (files : GoMap JSString Bytes) (name : JSString) (data : Bytes) :
    GoMap JSString Bytes :=
  if name = utf16 "__proto__".toList then files else files.insert name data

section Reader

variable (inflate : Bytes → Option Bytes) (lossy : Bytes → JSString)

/-- The loop of `unzip` with `n` entries left, the next at `p`. -/
def unzipLoop (buf : Bytes) : ℕ → ℕ → GoMap JSString Bytes → Option (GoMap JSString Bytes)
  | 0, _, files => some files
  | n + 1, p, files => do
    let sig ← readUInt 4 buf p
    if sig ≠ 0x02014b50 then none
    else
      let method ← readUInt 2 buf (p + 10)
      let csize ← readUInt 4 buf (p + 20)
      let nl ← readUInt 2 buf (p + 28)
      let xl ← readUInt 2 buf (p + 30)
      let cl ← readUInt 2 buf (p + 32)
      let lo ← readUInt 4 buf (p + 42)
      let name := ofUtf8 lossy (subarray buf (p + 46) (p + 46 + nl))
      let localName ← readUInt 2 buf (lo + 26)
      let localExtra ← readUInt 2 buf (lo + 28)
      let start := lo + 30 + localName + localExtra
      let raw := subarray buf start (start + csize)
      let data ← if method = 8 then inflate raw else some raw
      unzipLoop buf n (p + (46 + nl + xl + cl)) (assignFile files name data)

/-- `unzip`. -/
def unzip (buf : Bytes) : Option (GoMap JSString Bytes) :=
  if buf.length < 22 then none
  else do
    let e ← findEnd buf (buf.length - 22)
    let n ← readUInt 2 buf (e + 10)
    let p ← readUInt 4 buf (e + 16)
    unzipLoop inflate lossy buf n p ∅

end Reader

/-- What a header says of its member. -/
structure HeaderInfo where
  method : ℕ
  crc : ℕ
  compressed : ℕ
  size : ℕ
  name : Bytes
deriving DecidableEq, Repr

def Member.info (m : Member) : HeaderInfo :=
  ⟨m.method, (crc32 m.data).toNat, m.body.length, m.data.length, m.name⟩

/-- The local header at `lo`. -/
def readLocal (buf : Bytes) (lo : ℕ) : Option HeaderInfo := do
  let sig ← readUInt 4 buf lo
  let method ← readUInt 2 buf (lo + 8)
  let crc ← readUInt 4 buf (lo + 14)
  let compressed ← readUInt 4 buf (lo + 18)
  let size ← readUInt 4 buf (lo + 22)
  let nl ← readUInt 2 buf (lo + 26)
  if sig = 0x04034b50 then
    some ⟨method, crc, compressed, size, subarray buf (lo + 30) (lo + 30 + nl)⟩
  else none

/-- The entry of the central directory at `p`, with the offset of its local header and the
place of the next entry. -/
def readCentral (buf : Bytes) (p : ℕ) : Option (HeaderInfo × ℕ × ℕ) := do
  let sig ← readUInt 4 buf p
  let method ← readUInt 2 buf (p + 10)
  let crc ← readUInt 4 buf (p + 16)
  let compressed ← readUInt 4 buf (p + 20)
  let size ← readUInt 4 buf (p + 24)
  let nl ← readUInt 2 buf (p + 28)
  let xl ← readUInt 2 buf (p + 30)
  let cl ← readUInt 2 buf (p + 32)
  let lo ← readUInt 4 buf (p + 42)
  if sig = 0x02014b50 then
    some (⟨method, crc, compressed, size, subarray buf (p + 46) (p + 46 + nl)⟩, lo,
      p + (46 + nl + xl + cl))
  else none

/-- `n` entries of the central directory from `p`, each with the offset of its local header. -/
def readEntries (buf : Bytes) : ℕ → ℕ → Option (List (HeaderInfo × ℕ))
  | 0, _ => some []
  | n + 1, p => do
    let r ← readCentral buf p
    let rest ← readEntries buf n r.2.2
    return (r.1, r.2.1) :: rest

/-- The central directory of a package, as the record at its end gives it. -/
def centralDirectory (buf : Bytes) : Option (List (HeaderInfo × ℕ)) :=
  if buf.length < 22 then none
  else do
    let e ← findEnd buf (buf.length - 22)
    let n ← readUInt 2 buf (e + 10)
    let p ← readUInt 4 buf (e + 16)
    readEntries buf n p

/-! ## Records -/

/-- The bytes are the local header of the member. -/
structure IsLocal (m : Member) (lh : Bytes) : Prop where
  length_eq : lh.length = 30
  sig : readUInt 4 lh 0 = some 0x04034b50
  method : readUInt 2 lh 8 = some m.method
  crc : readUInt 4 lh 14 = some (crc32 m.data).toNat
  compressed : readUInt 4 lh 18 = some m.body.length
  size : readUInt 4 lh 22 = some m.data.length
  nameLen : readUInt 2 lh 26 = some m.name.length
  extraLen : readUInt 2 lh 28 = some 0

/-- The bytes are the entry of the member in the central directory, its local header being at
`off`. -/
structure IsCentral (m : Member) (off : ℕ) (ch : Bytes) : Prop where
  length_eq : ch.length = 46
  sig : readUInt 4 ch 0 = some 0x02014b50
  method : readUInt 2 ch 10 = some m.method
  crc : readUInt 4 ch 16 = some (crc32 m.data).toNat
  compressed : readUInt 4 ch 20 = some m.body.length
  size : readUInt 4 ch 24 = some m.data.length
  nameLen : readUInt 2 ch 28 = some m.name.length
  extraLen : readUInt 2 ch 30 = some 0
  commentLen : readUInt 2 ch 32 = some 0
  off : readUInt 4 ch 42 = some off

theorem isLocal_localHeader {m : Member} {lh : Bytes} (h : localHeader m = some lh) :
    IsLocal m lh := by
  obtain ⟨hlen, hread, hrest⟩ := writeAll_spec h (by simp [Put.Apart])
  have hextra := hrest 2 28 (by simp)
  rw [readUInt_alloc (by decide)] at hextra
  exact
    { length_eq := hlen
      sig := hread ⟨4, 0x04034b50, 0⟩ (by simp)
      method := hread ⟨2, m.method, 8⟩ (by simp)
      crc := hread ⟨4, (crc32 m.data).toNat, 14⟩ (by simp)
      compressed := hread ⟨4, m.body.length, 18⟩ (by simp)
      size := hread ⟨4, m.data.length, 22⟩ (by simp)
      nameLen := hread ⟨2, m.name.length, 26⟩ (by simp)
      extraLen := hextra }

theorem isCentral_centralHeader {m : Member} {off : ℕ} {ch : Bytes}
    (h : centralHeader m off = some ch) : IsCentral m off ch := by
  obtain ⟨hlen, hread, hrest⟩ := writeAll_spec h (by simp [Put.Apart])
  have hextra := hrest 2 30 (by simp)
  have hcomment := hrest 2 32 (by simp)
  rw [readUInt_alloc (by decide)] at hextra hcomment
  exact
    { length_eq := hlen
      sig := hread ⟨4, 0x02014b50, 0⟩ (by simp)
      method := hread ⟨2, m.method, 10⟩ (by simp)
      crc := hread ⟨4, (crc32 m.data).toNat, 16⟩ (by simp)
      compressed := hread ⟨4, m.body.length, 20⟩ (by simp)
      size := hread ⟨4, m.data.length, 24⟩ (by simp)
      nameLen := hread ⟨2, m.name.length, 28⟩ (by simp)
      extraLen := hextra
      commentLen := hcomment
      off := hread ⟨4, off, 42⟩ (by simp) }

theorem endRecord_spec {count size off : ℕ} {tail : Bytes}
    (h : endRecord count size off = some tail) : tail.length = 22 ∧
      readUInt 4 tail 0 = some 0x06054b50 ∧ readUInt 2 tail 10 = some count ∧
      readUInt 4 tail 16 = some off := by
  obtain ⟨hlen, hread, -⟩ := writeAll_spec h (by simp [Put.Apart])
  exact ⟨hlen, hread ⟨4, 0x06054b50, 0⟩ (by simp), hread ⟨2, count, 10⟩ (by simp),
    hread ⟨4, off, 16⟩ (by simp)⟩

/-! ## Where the records lie -/

/-- The members lie in the buffer one after the other from `off`, and their entries of the
central directory from `p`. -/
def Archived (buf : Bytes) : ℕ → ℕ → List Member → Prop
  | _, _, [] => True
  | off, p, m :: ms =>
    (∃ lh, IsLocal m lh ∧ NodeBuffer.Holds buf off (lh ++ (m.name ++ m.body))) ∧
      (∃ ch, IsCentral m off ch ∧ NodeBuffer.Holds buf p (ch ++ m.name)) ∧
      Archived buf (off + (30 + m.name.length + m.body.length)) (p + (46 + m.name.length)) ms

/-- The loop of `zip` appends the records of the files. -/
theorem addMembers_archived (deflate : Bytes → Bytes) : ∀ {files : List PackageFile}
    {st st' : ZipState}, files.foldlM (addMember deflate) st = some st' →
    ∃ ps cs, st'.parts = st.parts ++ ps ∧ st'.central = st.central ++ cs ∧
      st'.off = st.off + ps.length ∧
      ∀ buf p, NodeBuffer.Holds buf st.off ps → NodeBuffer.Holds buf p cs →
        Archived buf st.off p (files.map (pack deflate))
  | [], st, st', h => by
    cases h
    exact ⟨[], [], (List.append_nil _).symm, (List.append_nil _).symm, rfl, fun _ _ _ _ => trivial⟩
  | f :: files, st, st', h => by
    obtain ⟨mid, hmid, h⟩ := Option.bind_eq_some_iff.mp h
    obtain ⟨lh, hlh, hmid⟩ := Option.bind_eq_some_iff.mp hmid
    obtain ⟨ch, hch, hmid⟩ := Option.bind_eq_some_iff.mp hmid
    cases hmid
    obtain ⟨ps, cs, hparts, hcentral, hoff, hrest⟩ := addMembers_archived deflate h
    have hlocal := isLocal_localHeader hlh
    have hdir := isCentral_centralHeader hch
    have hpart : (lh ++ ((pack deflate f).name ++ (pack deflate f).body)).length =
        30 + (pack deflate f).name.length + (pack deflate f).body.length := by
      rw [List.length_append, List.length_append, hlocal.length_eq, Nat.add_assoc]
    have hentry : (ch ++ (pack deflate f).name).length = 46 + (pack deflate f).name.length := by
      rw [List.length_append, hdir.length_eq]
    refine ⟨lh ++ ((pack deflate f).name ++ (pack deflate f).body) ++ ps,
      ch ++ (pack deflate f).name ++ cs, ?_, ?_, ?_, fun buf p hps hcs => ?_⟩
    · rw [hparts, List.append_assoc st.parts]
    · rw [hcentral, List.append_assoc st.central]
    · rw [hoff, List.length_append, hpart, Nat.add_assoc st.off]
    · refine ⟨⟨lh, hlocal, hps.left⟩, ⟨ch, hdir, hcs.left⟩, ?_⟩
      have hps' := hps.right
      have hcs' := hcs.right
      rw [hpart] at hps'
      rw [hentry] at hcs'
      exact hrest buf _ hps' hcs'

/-- The record at the end is the last 22 bytes and points at the directory. -/
structure EndsAt (buf : Bytes) (count p : ℕ) : Prop where
  length_ge : 22 ≤ buf.length
  sig : readUInt 4 buf (buf.length - 22) = some 0x06054b50
  count : readUInt 2 buf (buf.length - 22 + 10) = some count
  directory : readUInt 4 buf (buf.length - 22 + 16) = some p

/-- A written package holds the members in order, and its end points at their entries. -/
theorem zip_archived {deflate : Bytes → Bytes} {files : List PackageFile} {out : Bytes}
    (h : zip deflate files = some out) : ∃ p, EndsAt out files.length p ∧
      Archived out 0 p ((sortFiles files).map (pack deflate)) := by
  obtain ⟨st, hst, h⟩ := Option.bind_eq_some_iff.mp h
  obtain ⟨tail, htail, h⟩ := Option.bind_eq_some_iff.mp h
  cases h
  obtain ⟨ps, cs, hparts, hcentral, hoff, harchived⟩ := addMembers_archived deflate hst
  obtain ⟨hlen, hsig, hcount, hdir⟩ := endRecord_spec htail
  rw [List.nil_append] at hparts hcentral
  rw [Nat.zero_add] at hoff
  rw [hparts, hcentral]
  have hend : NodeBuffer.Holds (ps ++ (cs ++ tail)) (ps ++ cs).length tail :=
    ⟨ps ++ cs, [], by rw [List.append_nil, List.append_assoc], rfl⟩
  have htotal : (ps ++ (cs ++ tail)).length = (ps ++ cs).length + 22 := by
    rw [← List.append_assoc, List.length_append, hlen]
  have hat : (ps ++ (cs ++ tail)).length - 22 = (ps ++ cs).length := by
    rw [htotal, Nat.add_sub_cancel]
  refine ⟨st.off, ⟨?_, ?_, ?_, ?_⟩, harchived _ _ ⟨[], cs ++ tail, rfl, rfl⟩ ?_⟩
  · rw [htotal]
    exact Nat.le_add_left 22 _
  · rw [hat]
    exact hend.readUInt_some (k := 0) hsig
  · rw [hat]
    exact hend.readUInt_some hcount
  · rw [hat]
    exact hend.readUInt_some hdir
  · exact ⟨ps, tail, rfl, hoff.symm⟩

/-! ## The reader -/

section Reader

variable {buf : Bytes} {m : Member} {off p : ℕ}

/-- What a reader finds of one member : its bytes behind its local header, and its name behind
its entry. -/
theorem IsLocal.holds_body {lh : Bytes} (h : IsLocal m lh)
    (hbuf : NodeBuffer.Holds buf off (lh ++ (m.name ++ m.body))) :
    NodeBuffer.Holds buf (off + 30 + m.name.length) m.body := by
  have hbody := hbuf.right.right
  rwa [h.length_eq] at hbody

theorem IsLocal.readLocal_eq {lh : Bytes} (h : IsLocal m lh)
    (hbuf : NodeBuffer.Holds buf off (lh ++ (m.name ++ m.body))) :
    readLocal buf off = some m.info := by
  have hlh := hbuf.left
  have hname := hbuf.right.left
  rw [h.length_eq] at hname
  have hsig : readUInt 4 buf off = some 0x04034b50 := hlh.readUInt_some (k := 0) h.sig
  unfold readLocal
  rw [hsig, hlh.readUInt_some h.method, hlh.readUInt_some h.crc, hlh.readUInt_some h.compressed,
    hlh.readUInt_some h.size, hlh.readUInt_some h.nameLen]
  simp only [Option.bind_eq_bind, Option.bind_some, if_true, hname.subarray_eq, Member.info]

theorem IsCentral.readCentral_eq {ch : Bytes} (h : IsCentral m off ch)
    (hbuf : NodeBuffer.Holds buf p (ch ++ m.name)) :
    readCentral buf p = some (m.info, off, p + (46 + m.name.length)) := by
  have hch := hbuf.left
  have hname := hbuf.right
  rw [h.length_eq] at hname
  have hsig : readUInt 4 buf p = some 0x02014b50 := hch.readUInt_some (k := 0) h.sig
  unfold readCentral
  rw [hsig, hch.readUInt_some h.method, hch.readUInt_some h.crc, hch.readUInt_some h.compressed,
    hch.readUInt_some h.size, hch.readUInt_some h.nameLen, hch.readUInt_some h.extraLen,
    hch.readUInt_some h.commentLen, hch.readUInt_some h.off]
  simp only [Option.bind_eq_bind, Option.bind_some, if_true, hname.subarray_eq, Member.info,
    Nat.add_zero]

/-- The entries of the directory are those of the members, each with the offset of a local
header that says the same. -/
theorem readEntries_archived : ∀ {ms : List Member} {off p : ℕ}, Archived buf off p ms →
    ∃ ds, readEntries buf ms.length p = some ds ∧
      List.Forall₂ (fun d m => d.1 = m.info ∧ readLocal buf d.2 = some m.info) ds ms
  | [], _, _, _ => ⟨[], rfl, .nil⟩
  | m :: ms, off, p, h => by
    obtain ⟨⟨lh, hlh, hlocal⟩, ⟨ch, hch, hdir⟩, hrest⟩ := h
    obtain ⟨ds, hds, hall⟩ := readEntries_archived hrest
    refine ⟨(m.info, off) :: ds, ?_, .cons ⟨rfl, hlh.readLocal_eq hlocal⟩ hall⟩
    rw [List.length_cons, readEntries, hch.readCentral_eq hdir]
    simp only [Option.bind_eq_bind, Option.bind_some, hds]
    rfl

/-- What is stored of a file gives its bytes back. -/
theorem pack_data {deflate : Bytes → Bytes} {inflate : Bytes → Option Bytes}
    (hinv : ∀ b, inflate (deflate b) = some b) (f : PackageFile) :
    (if (pack deflate f).method = 8 then inflate (pack deflate f).body
      else some (pack deflate f).body) = some f.2 := by
  unfold pack
  split_ifs with hfew hmethod hmethod
  · exact hinv f.2
  · exact absurd rfl hmethod
  · cases hmethod
  · rfl

theorem pack_name (deflate : Bytes → Bytes) (f : PackageFile) :
    (pack deflate f).name = toUtf8 f.1 := by
  unfold pack
  split_ifs <;> rfl

/-- The loop of the reader assigns every file under its name. -/
theorem unzipLoop_archived {deflate : Bytes → Bytes} {inflate : Bytes → Option Bytes}
    (lossy : Bytes → JSString) (hinv : ∀ b, inflate (deflate b) = some b) :
    ∀ {files : List PackageFile} {off p : ℕ} (acc : GoMap JSString Bytes),
      Archived buf off p (files.map (pack deflate)) →
      unzipLoop inflate lossy buf files.length p acc = some
        (files.foldl (fun acc f => assignFile acc (ofUtf8 lossy (toUtf8 f.1)) f.2) acc)
  | [], _, _, _, _ => rfl
  | f :: files, off, p, acc, h => by
    obtain ⟨⟨lh, hlh, hlocal⟩, ⟨ch, hch, hdir⟩, hrest⟩ := h
    have ih := unzipLoop_archived lossy hinv
      (assignFile acc (ofUtf8 lossy (toUtf8 f.1)) f.2) hrest
    have hentry := hdir.left
    have hname := hdir.right
    rw [hch.length_eq] at hname
    have hsig : readUInt 4 buf p = some 0x02014b50 := hentry.readUInt_some (k := 0) hch.sig
    have hbody := hlh.holds_body hlocal
    rw [List.length_cons, unzipLoop, hsig, hentry.readUInt_some hch.method,
      hentry.readUInt_some hch.compressed, hentry.readUInt_some hch.nameLen,
      hentry.readUInt_some hch.extraLen, hentry.readUInt_some hch.commentLen,
      hentry.readUInt_some hch.off]
    simp only [Option.bind_eq_bind, Option.bind_some, ne_eq, not_true_eq_false, if_false,
      hlocal.left.readUInt_some hlh.nameLen, hlocal.left.readUInt_some hlh.extraLen,
      Nat.add_zero, hname.subarray_eq, hbody.subarray_eq]
    have hdata := pack_data hinv f
    rw [List.foldl_cons, ← ih, pack_name]
    by_cases hmethod : (pack deflate f).method = 8
    · rw [if_pos hmethod] at hdata ⊢
      rw [hdata, Option.bind_some]
    · rw [if_neg hmethod] at hdata ⊢
      rw [Option.some.inj hdata]

/-- The search for the record at the end stops at once. -/
theorem EndsAt.findEnd_eq {count : ℕ} (h : EndsAt buf count p) :
    findEnd buf (buf.length - 22) = some (buf.length - 22) := by
  have hsig := h.sig
  generalize buf.length - 22 = e at hsig ⊢
  cases e with
  | zero => rw [findEnd, if_pos hsig]
  | succ e => rw [findEnd, if_pos hsig]

theorem EndsAt.unzip_eq {count : ℕ} (h : EndsAt buf count p) (inflate : Bytes → Option Bytes)
    (lossy : Bytes → JSString) :
    unzip inflate lossy buf = unzipLoop inflate lossy buf count p ∅ := by
  unfold unzip
  rw [if_neg (not_lt.mpr h.length_ge), h.findEnd_eq]
  simp only [Option.bind_eq_bind, Option.bind_some, h.count, h.directory]

theorem EndsAt.centralDirectory_eq {count : ℕ} (h : EndsAt buf count p) :
    centralDirectory buf = readEntries buf count p := by
  unfold centralDirectory
  rw [if_neg (not_lt.mpr h.length_ge), h.findEnd_eq]
  simp only [Option.bind_eq_bind, Option.bind_some, h.count, h.directory]

end Reader

/-! ## The order of the files -/

theorem sortFiles_perm (files : List PackageFile) : (sortFiles files).Perm files :=
  List.mergeSort_perm files _

/-- A file may stand before another if its name is not above the other's. -/
theorem before_iff (a b : PackageFile) : (!decide (compareNames b a < 0)) = true ↔ a.1 ≤ b.1 := by
  unfold compareNames
  split_ifs with hlt
  · simpa using hlt
  · simpa using hlt

theorem sortFiles_sorted (files : List PackageFile) :
    (sortFiles files).Pairwise fun a b => a.1 ≤ b.1 := by
  have hsorted : (sortFiles files).Pairwise fun a b => (!decide (compareNames b a < 0)) = true := by
    refine List.pairwise_mergeSort (fun a b c hab hbc => ?_) (fun a b => ?_) files
    · rw [before_iff] at hab hbc ⊢
      exact List.le_trans hab hbc
    · rw [Bool.or_eq_true, before_iff, before_iff]
      exact List.le_total a.1 b.1
  exact hsorted.imp fun {a b} h => (before_iff a b).mp h

/-- Distinct names leave one order. -/
theorem sortFiles_eq_of_sorted {files order : List PackageFile} (h : order.Perm files)
    (hnames : (files.map Prod.fst).Nodup) (hsorted : order.Pairwise fun a b => a.1 ≤ b.1) :
    sortFiles files = order := by
  have hperm : (sortFiles files).Perm order := (sortFiles_perm files).trans h.symm
  refine hperm.eq_of_pairwise (fun a b ha hb hab hba => ?_) (sortFiles_sorted files) hsorted
  have ha' : a ∈ files := (sortFiles_perm files).mem_iff.mp ha
  have hb' : b ∈ files := h.mem_iff.mp hb
  exact List.inj_on_of_nodup_map hnames ha' hb' (List.le_antisymm hab hba)

/-! ## The names -/

/-- Assigning files of distinct names to an object. -/
theorem lookup_foldl_insert : ∀ {files : List PackageFile} (acc : GoMap JSString Bytes),
    (files.map Prod.fst).Nodup → (∀ f ∈ files, f.1 ≠ utf16 "__proto__".toList) →
    ∀ (name : JSString) (data : Bytes),
      (files.foldl (fun acc f => assignFile acc f.1 f.2) acc).lookup name = some data ↔
        (name, data) ∈ files ∨ name ∉ files.map Prod.fst ∧ acc.lookup name = some data
  | [], acc, _, _, name, data => by simp
  | f :: files, acc, hnames, hproto, name, data => by
    rw [List.map_cons, List.nodup_cons] at hnames
    have hassign : assignFile acc f.1 f.2 = acc.insert f.1 f.2 :=
      if_neg (hproto f List.mem_cons_self)
    rw [List.foldl_cons, lookup_foldl_insert _ hnames.2
      (fun g hg => hproto g (List.mem_cons_of_mem f hg)), hassign, List.map_cons, List.mem_cons,
      List.mem_cons]
    by_cases hname : name = f.1
    · subst hname
      have hnot : (f.1, data) ∉ files := fun hmem =>
        hnames.1 (List.mem_map.mpr ⟨(f.1, data), hmem, rfl⟩)
      have hf : (f.1, data) = f ↔ f.2 = data := by
        rw [Prod.ext_iff]
        exact ⟨fun h => h.2.symm, fun h => ⟨rfl, h.symm⟩⟩
      rw [Finmap.lookup_insert, Option.some_inj, hf]
      simp [hnot, hnames.1]
    · have hf : (name, data) ≠ f := fun h => hname (congrArg Prod.fst h)
      rw [Finmap.lookup_insert_of_ne _ hname]
      simp [hname, hf]

/-- What the reader makes of a written package : the files in their order, each under the name
its UTF-8 spelling is read as. -/
theorem unzip_zip {deflate : Bytes → Bytes} {inflate : Bytes → Option Bytes}
    (lossy : Bytes → JSString) (hinv : ∀ b, inflate (deflate b) = some b)
    {files : List PackageFile} {out : Bytes} (h : zip deflate files = some out) :
    unzip inflate lossy out = some ((sortFiles files).foldl
      (fun acc f => assignFile acc (ofUtf8 lossy (toUtf8 f.1)) f.2) ∅) := by
  obtain ⟨p, hend, harch⟩ := zip_archived h
  rw [hend.unzip_eq, ← (sortFiles_perm files).length_eq]
  exact unzipLoop_archived lossy hinv ∅ harch

/-- Names without a lone surrogate are read as they were written. -/
theorem recovers_files {deflate : Bytes → Bytes} {inflate : Bytes → Option Bytes}
    (lossy : Bytes → JSString) (hinv : ∀ b, inflate (deflate b) = some b)
    {files : List PackageFile} (hnames : (files.map Prod.fst).Nodup)
    (hplain : ∀ f ∈ files, JSString.WellFormed f.1 ∧ f.1 ≠ utf16 "__proto__".toList) {out : Bytes}
    (h : zip deflate files = some out) :
    ∃ m, unzip inflate lossy out = some m ∧
      ∀ name data, m.lookup name = some data ↔ (name, data) ∈ files := by
  have hperm := sortFiles_perm files
  have hread : ∀ f ∈ sortFiles files, ofUtf8 lossy (toUtf8 f.1) = f.1 := fun f hf =>
    ofUtf8_toUtf8 lossy (hplain f (hperm.mem_iff.mp hf)).1
  refine ⟨_, unzip_zip lossy hinv h, fun name data => ?_⟩
  have hfold : (sortFiles files).foldl
      (fun acc f => assignFile acc (ofUtf8 lossy (toUtf8 f.1)) f.2) ∅ =
        (sortFiles files).foldl (fun acc f => assignFile acc f.1 f.2) ∅ :=
    List.foldl_ext _ _ _ fun acc f hf => by rw [hread f hf]
  have hnames' : ((sortFiles files).map Prod.fst).Nodup :=
    (hperm.map Prod.fst).nodup_iff.mpr hnames
  rw [hfold, lookup_foldl_insert ∅ hnames' fun f hf => (hplain f (hperm.mem_iff.mp hf)).2]
  simp [hperm.mem_iff]

/-- The directory of a written package lists its files, and each offset in it is that of a
local header that says the same as the entry. -/
theorem directory_agrees {deflate : Bytes → Bytes} {files : List PackageFile} {out : Bytes}
    (h : zip deflate files = some out) :
    ∃ ds, centralDirectory out = some ds ∧
      List.Forall₂ (fun d f => d.1 = (pack deflate f).info ∧ readLocal out d.2 = some d.1) ds
        (sortFiles files) := by
  obtain ⟨p, hend, harch⟩ := zip_archived h
  obtain ⟨ds, hds, hall⟩ := readEntries_archived harch
  refine ⟨ds, ?_, ?_⟩
  · rw [hend.centralDirectory_eq, ← (sortFiles_perm files).length_eq,
      ← List.length_map (f := pack deflate)]
    exact hds
  · rw [List.forall₂_map_right_iff] at hall
    exact hall.imp fun d f hd => ⟨hd.1, hd.1 ▸ hd.2⟩

theorem zip_perm {deflate : Bytes → Bytes} {files files' : List PackageFile}
    (h : files'.Perm files) (hnames : (files.map Prod.fst).Nodup) :
    zip deflate files' = zip deflate files := by
  have hsort : sortFiles files = sortFiles files' :=
    sortFiles_eq_of_sorted ((sortFiles_perm files').trans h) hnames (sortFiles_sorted files')
  unfold zip
  rw [hsort, h.length_eq]

/-- For every list of files with distinct names on which the writer does not throw : the
directory lists the files, with the offsets of local headers that agree with it; the order of
the list does not matter; and the reader recovers exactly the files, provided no name has a
lone surrogate or is `__proto__`. -/
theorem package_reproducible (deflate : Bytes → Bytes) (inflate : Bytes → Option Bytes)
    (lossy : Bytes → JSString) (hinv : ∀ b, inflate (deflate b) = some b)
    (files : List PackageFile) (hnames : (files.map Prod.fst).Nodup) (out : Bytes)
    (h : zip deflate files = some out) :
    ((∀ f ∈ files, JSString.WellFormed f.1 ∧ f.1 ≠ utf16 "__proto__".toList) →
      ∃ m, unzip inflate lossy out = some m ∧
        ∀ name data, m.lookup name = some data ↔ (name, data) ∈ files) ∧
      (∃ ds order, centralDirectory out = some ds ∧ order.Perm files ∧
        List.Forall₂ (fun d f => d.1 = (pack deflate f).info ∧ readLocal out d.2 = some d.1) ds
          order) ∧
      ∀ files', files'.Perm files → zip deflate files' = some out := by
  refine ⟨fun hplain => recovers_files lossy hinv hnames hplain h, ?_, fun files' hperm => ?_⟩
  · obtain ⟨ds, hds, hall⟩ := directory_agrees h
    exact ⟨ds, sortFiles files, hds, sortFiles_perm files, hall⟩
  · rw [zip_perm hperm hnames, h]

/-- Two files, given in the wrong order, under names of one and two UTF-16 units. -/
def samplePackage : List PackageFile :=
  [(utf16 ['😀'], [7, 7]), (utf16 ['a'], [])]

theorem samplePackage_reproducible :
    ∃ out m, zip id samplePackage = some out ∧ zip id samplePackage.reverse = some out ∧
      unzip some (fun _ => []) out = some m ∧ m.lookup (utf16 ['a']) = some [] := by
  have hsort : sortFiles samplePackage = samplePackage.reverse :=
    sortFiles_eq_of_sorted (List.reverse_perm _) (by decide) (by decide)
  have hzip : (zip id samplePackage).isSome = true := by
    unfold zip
    rw [hsort]
    decide +kernel
  obtain ⟨out, hout⟩ := Option.isSome_iff_exists.mp hzip
  obtain ⟨hread, -, hperm⟩ := package_reproducible id some (fun _ => []) (fun _ => rfl)
    samplePackage (by decide) out hout
  obtain ⟨m, hm, hfiles⟩ := hread (by
    rintro f (_ | ⟨_, _ | ⟨_, ⟨⟩⟩⟩)
    · exact ⟨⟨_, rfl⟩, by decide⟩
    · exact ⟨⟨_, rfl⟩, by decide⟩)
  exact ⟨out, m, hout, hperm _ (List.reverse_perm _), hm, (hfiles _ _).mpr (by decide)⟩

/-- What is read of a package with one file. -/
theorem unzip_singleton {name : JSString} {data out : Bytes}
    (h : zip id [(name, data)] = some out) : unzip some (fun _ => []) out =
      some (assignFile ∅ (ofUtf8 (fun _ => []) (toUtf8 name)) data) := by
  have hsort : sortFiles [(name, data)] = [(name, data)] :=
    List.perm_singleton.mp (sortFiles_perm _)
  rw [unzip_zip (fun _ => []) (fun _ => rfl) h, hsort]
  rfl

/-- A lone surrogate has no UTF-8 spelling, and the file comes back under another name. A file
named `__proto__` does not come back. -/
theorem names_lost :
    (∃ out m, zip id [([0xd800], [1])] = some out ∧ unzip some (fun _ => []) out = some m ∧
      m.lookup [0xd800] = none ∧ m.lookup [0xfffd] = some [1]) ∧
    ∃ out, zip id [(utf16 "__proto__".toList, [1])] = some out ∧
      unzip some (fun _ => []) out = some ∅ := by
  constructor
  · obtain ⟨out, hout⟩ := Option.isSome_iff_exists.mp
      (show (zip id [([0xd800], [1])]).isSome = true by decide +kernel)
    have hname : ofUtf8 (fun _ => []) (toUtf8 [0xd800]) = [0xfffd] := by
      rw [ofUtf8_toUtf8_eq]
      decide
    refine ⟨out, _, hout, unzip_singleton hout, ?_, ?_⟩
    · rw [hname]
      decide
    · rw [hname]
      decide
  · obtain ⟨out, hout⟩ := Option.isSome_iff_exists.mp
      (show (zip id [(utf16 "__proto__".toList, [1])]).isSome = true by decide +kernel)
    have hname : ofUtf8 (fun _ => []) (toUtf8 (utf16 "__proto__".toList)) =
        utf16 "__proto__".toList := by
      rw [ofUtf8_toUtf8_eq]
      decide
    refine ⟨out, hout, ?_⟩
    rw [unzip_singleton hout, hname, assignFile, if_pos rfl]

end FileRelay

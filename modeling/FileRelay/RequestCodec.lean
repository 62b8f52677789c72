import FileRelay.Messages

/-!
# The shape of the request codecs

A request body is one `RequestCodec` : a validator, the fields `Marshal` adds, and the loop,
the limit and the end of `Unmarshal`. `RequestCodec.Lawful` is what a codec has to meet, and
`RequestCodec.Lawful.agree` what follows : `Marshal` and `Unmarshal` are inverse to each
other, the body passes `readBody` of the handler and the limit of `Unmarshal`, and fields
with other ids are ignored.
-/

namespace FileRelay

open NanoPack (Field Codec layout Inserted)

/-- The error of a validator, as the codecs return it. -/
def wireCheck (c : Check) : Wire Unit :=
  c.mapError .protocol

theorem wireCheck_eq_ok {c : Check} {u : Unit} : wireCheck c = .ok u ↔ c = .ok () := by
  cases c with
  | error e => exact ⟨nofun, nofun⟩
  | ok => exact ⟨fun _ => rfl, fun _ => rfl⟩

/-- `readBody` of a body that can be read. -/
def readBody (body : Bytes) (limit : ℕ) : Except ProtocolError Bytes :=
  if limit < body.length then .error ⟨.payloadTooLarge, "body exceeds limit", 0⟩
  else if body.length = 0 then .error ⟨.invalidRequest, "empty body", 0⟩
  else .ok body

/-! ## Codecs of requests -/

/-- A request body : the ids of the `switch`, the limit of `Unmarshal`, the validator, the
fields of `Marshal`, and what `Unmarshal` starts from, does with a field and does at the
end. -/
structure RequestCodec (α β : Type) where
  known : List UInt8
  limit : ℕ
  check : α → Wire Unit
  fields : α → List Field
  zero : β
  set : β → Field → Wire β
  finish : β → Wire α

namespace RequestCodec

variable {α β : Type}

/-- The shape of the `Marshal` functions. -/
def marshal (c : RequestCodec α β) (np : Codec) (a : α) : Wire Bytes := do
  c.check a
  encodeFields np (c.fields a)

/-- The shape of the `Unmarshal` functions. -/
def unmarshal (c : RequestCodec α β) (np : Codec) (body : Bytes) : Wire α := do
  let out ← FileRelay.unmarshal np c.limit c.set c.zero (fun _ => .ok ()) body
  c.finish out

/-- A codec that sets the fields of the request itself and validates at the end. -/
def checked (known : List UInt8) (limit : ℕ) (check : α → Wire Unit) (fields : α → List Field)
    (zero : α) (set : α → Field → Wire α) : RequestCodec α α where
  known := known
  limit := limit
  check := check
  fields := fields
  zero := zero
  set := set
  finish out := do
    check out
    return out

/-- What a codec has to meet, for the requests that are `plain` : `Unmarshal` reads the
fields of a valid request back, validates what it returns and skips other ids, and the
fields of a valid request fit the limits. -/
structure Lawful (c : RequestCodec α β) (bodyLimit : ℕ) (plain : α → Prop) : Prop where
  length_fields : ∀ a, (c.fields a).length ≤ 255
  read : ∀ a, plain a → c.check a = .ok () →
    ∃ b, (c.fields a).foldlM c.set c.zero = .ok b ∧ c.finish b = .ok a
  finish_check : ∀ b a, c.finish b = .ok a → c.check a = .ok ()
  skip : ∀ b f, f.id ∉ c.known → c.set b f = .ok b
  size : ∀ a, c.check a = .ok () → 1 + ((c.fields a).map fun f => f.data.length + 4).sum ≤ c.limit
  limit_le : c.limit ≤ bodyLimit ∧ c.limit ≤ 2 ^ 21

theorem lawful_checked {known : List UInt8} {limit bodyLimit : ℕ} {check : α → Wire Unit}
    {fields : α → List Field} {zero : α} {set : α → Field → Wire α} {plain : α → Prop}
    (length_fields : ∀ a, (fields a).length ≤ 255)
    (read : ∀ a, plain a → check a = .ok () → (fields a).foldlM set zero = .ok a)
    (skip : ∀ b f, f.id ∉ known → set b f = .ok b)
    (size : ∀ a, check a = .ok () → 1 + ((fields a).map fun f => f.data.length + 4).sum ≤ limit)
    (limit_le : limit ≤ bodyLimit ∧ limit ≤ 2 ^ 21) :
    (checked known limit check fields zero set).Lawful bodyLimit plain where
  length_fields := length_fields
  read a hp ha := ⟨a, read a hp ha, wire_bind_eq_ok.mpr ⟨(), ha, rfl⟩⟩
  finish_check b a h := by
    obtain ⟨⟨⟩, hb, h⟩ := wire_bind_eq_ok.mp h
    cases h
    exact hb
  skip := skip
  size := size
  limit_le := limit_le

end RequestCodec

/-- `Marshal` and `Unmarshal` of a request agree with each other and with the limit its
handler gives `readBody`. -/
structure CodecsAgree {α : Type} (np : Codec) (marshal : Codec → α → Wire Bytes)
    (unmarshal : Codec → Bytes → Wire α) (known : List UInt8) (bodyLimit limit : ℕ)
    (plain : α → Prop) : Prop where
  round_trip : ∀ a body, plain a → marshal np a = .ok body → body.length ≤ bodyLimit ∧
    body.length ≤ limit ∧ readBody body bodyLimit = .ok body ∧ unmarshal np body = .ok a
  accepted : ∀ a body, plain a → unmarshal np body = .ok a →
    ∃ body', marshal np a = .ok body' ∧ unmarshal np body' = .ok a
  extra : ∀ fs gs, Inserted known fs gs → gs.length ≤ 255 → (layout gs).length ≤ limit →
    unmarshal np (layout gs) = unmarshal np (layout fs)

namespace RequestCodec.Lawful

variable {α β : Type} {c : RequestCodec α β} {bodyLimit : ℕ} {plain : α → Prop} {np : Codec}

/-- The loop of `Unmarshal` over the fields of a body within its limit. -/
theorem unmarshal_layout (hnp : np.Lawful) {fs : List Field} (hfs : fs.length ≤ 255)
    (hlen : (layout fs).length ≤ c.limit) :
    c.unmarshal np (layout fs) = fs.foldlM c.set c.zero >>= c.finish := by
  unfold RequestCodec.unmarshal FileRelay.unmarshal checkBodyLen
  rw [rejectIf_neg (not_lt.mpr hlen), ok_bind, decodeFields_eq hnp hfs, ok_bind]
  cases fs.foldlM c.set c.zero <;> rfl

theorem marshal_eq_ok (h : c.Lawful bodyLimit plain) (hnp : np.Lawful) {a : α} {body : Bytes} :
    c.marshal np a = .ok body ↔ c.check a = .ok () ∧ body = layout (c.fields a) := by
  unfold RequestCodec.marshal
  rw [wire_bind_eq_ok, encodeFields_eq hnp (h.length_fields a)]
  constructor
  · rintro ⟨⟨⟩, hc, hb⟩
    exact ⟨hc, (Except.ok.inj hb).symm⟩
  · rintro ⟨hc, rfl⟩
    exact ⟨(), hc, rfl⟩

theorem length_body (h : c.Lawful bodyLimit plain) {a : α} (ha : c.check a = .ok ()) :
    (layout (c.fields a)).length ≤ c.limit :=
  NanoPack.length_layout_le h.limit_le.2 (h.size a ha)

theorem unmarshal_fields (h : c.Lawful bodyLimit plain) (hnp : np.Lawful) {a : α} (hp : plain a)
    (ha : c.check a = .ok ()) : c.unmarshal np (layout (c.fields a)) = .ok a := by
  obtain ⟨b, hb, hfinish⟩ := h.read a hp ha
  rw [unmarshal_layout hnp (h.length_fields a) (h.length_body ha), hb, ok_bind, hfinish]

/-- What `Unmarshal` returns is valid. -/
theorem check_of_unmarshal (h : c.Lawful bodyLimit plain) {body : Bytes} {a : α}
    (hu : c.unmarshal np body = .ok a) : c.check a = .ok () := by
  obtain ⟨b, -, hfinish⟩ := wire_bind_eq_ok.mp hu
  exact h.finish_check b a hfinish

theorem agree (h : c.Lawful bodyLimit plain) (hnp : np.Lawful) :
    CodecsAgree np (fun np => c.marshal np) (fun np => c.unmarshal np) c.known bodyLimit c.limit
      plain where
  round_trip a body hp hm := by
    obtain ⟨ha, rfl⟩ := (h.marshal_eq_ok hnp).mp hm
    have hlen := h.length_body ha
    have hbody := hlen.trans h.limit_le.1
    refine ⟨hbody, hlen, ?_, h.unmarshal_fields hnp hp ha⟩
    unfold readBody
    rw [if_neg (not_lt.mpr hbody), if_neg]
    rw [NanoPack.length_layout]
    omega
  accepted a body hp hu := by
    have ha := h.check_of_unmarshal hu
    exact ⟨_, (h.marshal_eq_ok hnp).mpr ⟨ha, rfl⟩, h.unmarshal_fields hnp hp ha⟩
  extra fs gs hins hlen hbody := by
    rw [unmarshal_layout hnp hlen hbody,
      unmarshal_layout hnp (hins.sublist.length_le.trans hlen) (hins.length_layout_le.trans hbody),
      hins.foldlM_eq h.skip]

end RequestCodec.Lawful

@[simp] theorem fieldU64_putU64 (v : UInt64) : fieldU64 (putU64 v) = .ok v := by
  unfold fieldU64
  rw [getU64_putU64]

end FileRelay

import FileRelay.Deployment

/-!
# The error texts of the servers

A server puts the detail of an error into the body of its response, and a client reads at most
4096 bytes of it. The details are written in the program. The decoders of the requests, the checks
of the handlers and the calls of the store all end with a brief error (`StoreCall.brief_run`), so
that no response grows with what a client sends.
-/

namespace FileRelay

open NanoPack (Field Codec layout)
open Fallible

/-! ## Requests -/

section Requests

variable {α β : Type} {np : Codec} {body : Bytes}

/-- A validator whose encoder fails with brief errors does so itself. -/
theorem check_brief (np : Codec) {c : RequestCodec α β} {a : α} (h : BriefWire (c.marshal np a)) :
    BriefWire (c.check a) := by
  unfold RequestCodec.marshal at h
  cases hc : c.check a with
  | error e =>
    rw [hc] at h
    exact h
  | ok u => trivial

/-- A case of a `switch` on the id of a field. -/
theorem switch_brief {f : Field} {k : UInt8} {x y : Wire α} (hx : BriefWire x)
    (hy : BriefWire y) : BriefWire (if f.id = k then x else y) :=
  meets_ite (fun _ => hx) fun _ => hy

/-- A decoder whose parts fail with brief errors. -/
theorem unmarshal_brief {c : RequestCodec α β} (hset : ∀ out f, BriefWire (c.set out f))
    (hfinish : ∀ out, BriefWire (c.finish out)) (hlimit : c.limit ≤ 2 ^ 21)
    (hbody : body.length ≤ 2 ^ 21) : BriefWire (c.unmarshal np body) := by
  unfold RequestCodec.unmarshal FileRelay.unmarshal
  refine Meets.bind (Q := fun _ => True) ?_ fun out _ => hfinish out
  refine (checkBodyLen_meets hbody hlimit).bind fun _ _ => ?_
  refine (decodeFields_brief np body).bind fun fs _ => ?_
  exact (meets_foldlM (fun f _ out _ => hset out f) trivial).bind fun _ _ => trivial

/-- The same for a codec that validates at the end. -/
theorem unmarshal_checked_brief {known : List UInt8} {limit : ℕ} {check : α → Wire Unit}
    {fields : α → List Field} {zero : α} {set : α → Field → Wire α}
    (hset : ∀ out f, BriefWire (set out f)) (hcheck : ∀ a, BriefWire (check a))
    (hlimit : limit ≤ 2 ^ 21) (hbody : body.length ≤ 2 ^ 21) :
    BriefWire ((RequestCodec.checked known limit check fields zero set).unmarshal np body) :=
  unmarshal_brief hset (fun out => (hcheck out).bind fun _ _ => trivial) hlimit hbody

theorem unmarshalRegister_brief (hbody : body.length ≤ 2 ^ 21) :
    BriefWire (unmarshalRegister np body) := by
  refine unmarshal_checked_brief (fun out f => ?_)
    (fun a => check_brief np (marshalRegister_brief a)) (by decide) hbody
  unfold Register.set
  repeat' refine switch_brief ?_ ?_
  all_goals first
    | trivial
    | exact (fieldU64_brief _).map

theorem unmarshalResolve_brief (hbody : body.length ≤ 2 ^ 21) :
    BriefWire (unmarshalResolve np body) := by
  refine unmarshal_checked_brief (fun out f => ?_)
    (fun a => check_brief np (marshalResolve_brief a)) (by decide) hbody
  unfold Resolve.set
  repeat' refine switch_brief ?_ ?_
  all_goals trivial

theorem unmarshalSendMessage_brief (hbody : body.length ≤ 2 ^ 21) :
    BriefWire (unmarshalSendMessage np body) := by
  refine unmarshal_checked_brief (fun out f => ?_)
    (fun a => check_brief np (marshalSendMessage_brief a)) (by decide) hbody
  unfold SendMessage.set
  repeat' refine switch_brief ?_ ?_
  all_goals first
    | trivial
    | exact (fieldU64_brief _).map
    | exact (fieldU32_brief _).map
    | exact (fieldU8_brief _).map

theorem unmarshalReceiveMessages_brief (hbody : body.length ≤ 2 ^ 21) :
    BriefWire (unmarshalReceiveMessages np body) := by
  refine unmarshal_checked_brief (fun out f => ?_) (fun a => ?_) (by decide) hbody
  · unfold ReceiveMessages.set
    repeat' refine switch_brief ?_ ?_
    all_goals first
      | trivial
      | exact (fieldU8_brief _).map
  · unfold validateReceiveMessages
    exact (rejectIf_meets (by decide)).bind fun _ _ => rejectIf_keeps (by decide) trivial

theorem validateMessageAck_brief (a : MessageAck) :
    Meets (fun _ => True) ProtocolError.Brief (validateMessageAck a) :=
  failIf_brief (by decide) <| failIf_brief (by decide) <| failIf_brief (by decide) <|
    failIf_brief (by decide) <| failIf_brief (by decide) check_ok_brief

theorem unmarshalMessageAck_brief (hbody : body.length ≤ 2 ^ 21) :
    BriefWire (unmarshalMessageAck np body) := by
  refine unmarshal_brief (c := messageAckCodec) (fun out f => ?_) (fun out => ?_) (by decide) hbody
  · change BriefWire (AckFields.set out f)
    unfold AckFields.set
    repeat' refine switch_brief ?_ ?_
    all_goals first
      | trivial
      | exact (fieldU8_brief _).map
  · change BriefWire out.finish
    unfold AckFields.finish
    refine (rejectIf_meets (by decide)).bind fun _ _ => ?_
    exact (wireCheck_brief (validateMessageAck_brief _)).bind fun _ _ => trivial

theorem unmarshalTransferCreate_brief (hbody : body.length ≤ 2 ^ 21) :
    BriefWire (unmarshalTransferCreate np body) := by
  refine unmarshal_checked_brief (fun out f => ?_)
    (fun a => check_brief np (marshalTransferCreate_brief a)) (by decide) hbody
  unfold TransferCreate.set
  repeat' refine switch_brief ?_ ?_
  all_goals first
    | trivial
    | exact (fieldU64_brief _).map
    | exact (fieldU32_brief _).map

theorem unmarshalChunkUpload_brief (hbody : body.length ≤ 2 ^ 21) :
    BriefWire (unmarshalChunkUpload np body) := by
  refine unmarshal_checked_brief (fun out f => ?_)
    (fun a => check_brief np (marshalChunkUpload_brief a)) (by decide) hbody
  unfold ChunkUpload.set
  repeat' refine switch_brief ?_ ?_
  all_goals first
    | trivial
    | exact (fieldU64_brief _).map
    | exact (fieldU32_brief _).map

theorem unmarshalChunkDownload_brief (hbody : body.length ≤ 2 ^ 21) :
    BriefWire (unmarshalChunkDownload np body) := by
  refine unmarshal_checked_brief (fun out f => ?_)
    (fun a => check_brief np (marshalChunkDownload_brief a)) (by decide) hbody
  unfold ChunkDownload.set
  repeat' refine switch_brief ?_ ?_
  all_goals first
    | trivial
    | exact (fieldU32_brief _).map

theorem unmarshalResumeRequest_brief (hbody : body.length ≤ 2 ^ 21) :
    BriefWire (unmarshalResumeRequest np body) := by
  refine unmarshal_checked_brief (fun out f => ?_)
    (fun a => check_brief np (marshalResumeRequest_brief a)) (by decide) hbody
  unfold ResumeRequest.set
  repeat' refine switch_brief ?_ ?_
  all_goals trivial

theorem unmarshalTransferComplete_brief (hbody : body.length ≤ 2 ^ 21) :
    BriefWire (unmarshalTransferComplete np body) := by
  refine unmarshal_checked_brief (fun out f => ?_)
    (fun a => check_brief np (marshalTransferComplete_brief a)) (by decide) hbody
  unfold TransferComplete.set
  repeat' refine switch_brief ?_ ?_
  all_goals first
    | trivial
    | exact (fieldU64_brief _).map

theorem unmarshalTransferCancel_brief (hbody : body.length ≤ 2 ^ 21) :
    BriefWire (unmarshalTransferCancel np body) := by
  refine unmarshal_checked_brief (fun out f => ?_)
    (fun a => check_brief np (marshalTransferCancel_brief a)) (by decide) hbody
  unfold TransferCancel.set
  repeat' refine switch_brief ?_ ?_
  all_goals first
    | trivial
    | exact (fieldU8_brief _).map

theorem unmarshalHello_brief (hbody : body.length ≤ 2 ^ 21) :
    BriefWire (unmarshalHello np body) := by
  unfold unmarshalHello FileRelay.unmarshal
  refine (checkBodyLen_meets hbody (by decide)).bind fun _ _ => ?_
  refine (decodeFields_brief np body).bind fun fs _ => ?_
  refine (meets_foldlM (I := fun _ => True) (fun f _ out _ => ?_) trivial).bind fun _ _ => trivial
  unfold Hello.set
  repeat' refine switch_brief ?_ ?_
  all_goals first
    | trivial
    | exact (fieldU64_brief _).map
    | exact (fieldU8_brief _).map

/-- `readBody` keeps the limit it is given. -/
theorem readRequest_meets (r : HTTPRequest) (limit : ℕ) :
    Meets (fun raw => raw.length ≤ limit) ProtocolError.Brief (readRequest r limit) := by
  unfold readRequest readBody
  split_ifs with h1 h2 h3 h4
  · exact (by decide : "body exceeds limit".utf8ByteSize ≤ 128)
  · exact (by decide : "unreadable body".utf8ByteSize ≤ 128)
  · exact (by decide : "body exceeds limit".utf8ByteSize ≤ 128)
  · exact (by decide : "empty body".utf8ByteSize ≤ 128)
  · exact not_lt.mp h3

theorem decodeRequest_brief (r : HTTPRequest) {limit : ℕ} {unmarshal : Bytes → Wire α}
    (hlimit : limit ≤ 2 ^ 21)
    (h : ∀ {raw : Bytes}, raw.length ≤ 2 ^ 21 → BriefWire (unmarshal raw)) :
    BriefWire (decodeRequest r limit unmarshal) := by
  unfold decodeRequest
  refine Meets.bind (Meets.mapError (readRequest_meets r limit)) fun raw hraw => ?_
  exact h (hraw.trans hlimit)

end Requests

/-! ## Signed requests -/

section Signed

variable {H : Bytes → Digest} {verify : Verifier} {now : ℤ}

theorem verifySigned_brief (pub canonical sig : Bytes) (ts : UInt64) :
    Meets (fun _ => True) ProtocolError.Brief (verifySigned verify pub canonical sig ts now) :=
  failIf_brief (by decide) <| failIf_brief (by decide) <| failIf_brief (by decide) check_ok_brief

theorem validateSendMessage_brief (m : SendMessage) :
    Meets (fun _ => True) ProtocolError.Brief (validateSendMessage m) :=
  failIf_brief (by decide) <| failIf_brief (by decide) <| failIf_brief (by decide) <|
    failIf_brief (by decide) <| failIf_brief (by decide) check_ok_brief

theorem validateTransferComplete_brief (t : TransferComplete) :
    Meets (fun _ => True) ProtocolError.Brief (validateTransferComplete t) :=
  failIf_brief (by decide) <| failIf_brief (by decide) check_ok_brief

theorem authSend_brief (m : SendMessage) :
    Meets (fun _ => True) ProtocolError.Brief (authSend H verify m now) :=
  (validateSendMessage_brief m).bind fun _ _ => failIf_brief (by decide) <|
    failIf_brief (by decide) <| failIf_brief (by decide) (verifySigned_brief ..)

theorem authCreate_brief (t : TransferCreate) :
    Meets (fun _ => True) ProtocolError.Brief (authCreate H verify t now) :=
  (validateTransferCreateMsg_brief t).bind fun _ _ => failIf_brief (by decide) <|
    failIf_brief (by decide) (verifySigned_brief ..)

theorem authComplete_brief (t : TransferComplete) :
    Meets (fun _ => True) ProtocolError.Brief (authComplete verify t now) :=
  (validateTransferComplete_brief t).bind fun _ _ => failIf_brief (by decide) <|
    failIf_brief (by decide) (verifySigned_brief ..)

end Signed

/-! ## The store -/

section Store

variable {α : Type} (s : MemStore) (now : ℤ)

/-- The call fails with brief errors only. -/
abbrev BriefResult (x : Result α) : Prop :=
  Meets (fun _ => True) ProtocolError.Brief x

theorem findTransfer_brief (id : ID) : BriefResult (findTransfer s id now).2 := by
  unfold findTransfer getTransferLocked
  cases h : s.transfers.lookup id with
  | none =>
    simp only [h]
    exact (by decide : "transfer not found".utf8ByteSize ≤ 128)
  | some t =>
    dsimp only
    split_ifs with hx
    · dsimp only
      cases (s.setTransfer id t.expire).transfers.lookup id with
      | none => exact (by decide : "transfer not found".utf8ByteSize ≤ 128)
      | some t' => exact (by decide : "transfer expired".utf8ByteSize ≤ 128)
    · trivial

theorem onTransfer_brief (id : ID) {rest : MemStore → TransferData → MemStore × Result α}
    (h : ∀ s t, BriefResult (rest s t).2) : BriefResult (onTransfer s id now rest).2 := by
  have hfind := findTransfer_brief s now id
  unfold onTransfer
  generalize findTransfer s id now = x at hfind ⊢
  obtain ⟨s', e | t⟩ := x
  · exact hfind
  · exact h s' t

variable (H : Bytes → Digest)

theorem ownerAuth_brief (t : TransferData) (mid : ID) (secret : Bytes) :
    BriefResult (ownerAuth H s t mid secret now) := by
  unfold ownerAuth
  split_ifs
  · exact (by decide : "mailbox mismatch".utf8ByteSize ≤ 128)
  · cases getMailboxLocked s mid now with
    | none => exact (by decide : "mailbox not found".utf8ByteSize ≤ 128)
    | some mb =>
      dsimp only
      split_ifs
      · exact (by decide : "bad read secret".utf8ByteSize ≤ 128)
      · trivial
  · trivial

theorem checkTicketLocked_brief (t : TransferData) (ticket : Bytes) :
    BriefResult (checkTicketLocked H t ticket) :=
  failIf_brief (by decide) <| failIf_brief (by decide) check_ok_brief

theorem readChunk_brief (t : TransferData) (index : ℕ) : BriefResult (readChunk t index) := by
  unfold readChunk
  split_ifs
  · exact (by decide : "index out of range".utf8ByteSize ≤ 128)
  · cases t.chunks.lookup index with
    | none => exact (by decide : "chunk missing".utf8ByteSize ≤ 128)
    | some p => trivial

theorem sendMessage_brief (msg : SendMessage) (id : ID) :
    BriefResult (sendMessage s now msg id).2 := by
  have hvalid := validateSendMessage_brief msg
  unfold sendMessage
  generalize validateSendMessage msg = x at hvalid ⊢
  rcases x with e | ⟨⟩
  · exact hvalid
  · dsimp only
    cases getMailboxLocked s (copyArr 16 msg.mailboxID) now with
    | none => exact (by decide : "mailbox not found".utf8ByteSize ≤ 128)
    | some mb =>
      dsimp only
      split_ifs
      · exact (by decide : "mailbox full".utf8ByteSize ≤ 128)
      · exact (by decide : "mailbox byte quota".utf8ByteSize ≤ 128)
      · trivial

theorem receiveMessages_brief (mid : ID) (secret : Bytes) (limit : ℤ) (peek : Bool) :
    BriefResult (receiveMessages H s now mid secret limit peek).2 := by
  unfold receiveMessages
  cases getMailboxLocked s mid now with
  | none => exact (by decide : "mailbox not found".utf8ByteSize ≤ 128)
  | some mb =>
    dsimp only
    split_ifs
    · exact (by decide : "bad read secret".utf8ByteSize ≤ 128)
    · trivial
    · trivial

theorem wantedIDs_brief : ∀ raws : List Bytes, BriefResult (wantedIDs raws)
  | [] => trivial
  | raw :: rest => by
    unfold wantedIDs
    split_ifs
    · exact (by decide : "msg_id must be 16 bytes".utf8ByteSize ≤ 128)
    · exact (wantedIDs_brief rest).map

theorem ackMessages_brief (mid : ID) (secret : Bytes) (ids : List Bytes) (disposition : UInt8) :
    BriefResult (ackMessages H s now mid secret ids disposition).2 := by
  have hwant := wantedIDs_brief ids
  unfold ackMessages
  by_cases hd : disposition ≠ ackReceived ∧ disposition ≠ ackConsumed
  · rw [if_pos hd]
    exact (by decide : "bad disposition".utf8ByteSize ≤ 128)
  by_cases hlen : ids.length = 0 ∨ maxBatchMessages < ids.length
  · rw [if_neg hd, if_pos hlen]
    exact (by decide : "msg_ids count out of bounds".utf8ByteSize ≤ 128)
  rw [if_neg hd, if_neg hlen]
  cases getMailboxLocked s mid now with
  | none => exact (by decide : "mailbox not found".utf8ByteSize ≤ 128)
  | some mb =>
    by_cases hsecret : (!secretMatches H mb.readSecretHash secret) = true
    · simp only [if_pos hsecret]
      exact (by decide : "bad read secret".utf8ByteSize ≤ 128)
    · simp only [if_neg hsecret]
      generalize wantedIDs ids = x at hwant ⊢
      rcases x with e | want
      · exact hwant
      · trivial

theorem createTransferQuota_brief (mid : ID) (totalSize : ℕ) :
    BriefResult (createTransferQuota s now mid totalSize) := by
  unfold createTransferQuota
  cases getMailboxLocked s mid now with
  | none => exact (by decide : "mailbox not found".utf8ByteSize ≤ 128)
  | some mb => exact failIf_brief (by decide) <| failIf_brief (by decide) check_ok_brief

theorem createTransfer_brief (t : TransferCreate) (id : ID) (ticket : Option (ByteArr 32)) :
    BriefResult (createTransfer H s now t id ticket).2 := by
  have hvalid := validateTransferCreateMsg_brief t
  unfold createTransfer
  generalize validateTransferCreateMsg t = x at hvalid ⊢
  rcases x with e | ⟨⟩
  · exact hvalid
  · dsimp only
    have hquota : BriefResult (if decide (t.mailboxID.length = 16) = true then
        createTransferQuota s now (if decide (t.mailboxID.length = 16) = true then
          copyArr 16 t.mailboxID else copyArr 16 []) t.totalSize.toNat else .ok ()) :=
      meets_ite (fun _ => createTransferQuota_brief s now _ _) fun _ => trivial
    generalize (if decide (t.mailboxID.length = 16) = true then
        createTransferQuota s now (if decide (t.mailboxID.length = 16) = true then
          copyArr 16 t.mailboxID else copyArr 16 []) t.totalSize.toNat else .ok ()) = x at hquota
    rcases x with e | ⟨⟩
    · exact hquota
    · cases ticket with
      | none => exact (by decide : "rand failed".utf8ByteSize ≤ 128)
      | some ticket => trivial

theorem checkChunk_brief (t : TransferData) (c : ChunkUpload) : BriefResult (checkChunk H t c) :=
  failIf_brief (by decide) <| failIf_brief (by decide) <| failIf_brief (by decide) <|
    failIf_brief (by decide) <| failIf_brief (by decide) <| failIf_brief (by decide) check_ok_brief

theorem validateChunkUpload_brief (c : ChunkUpload) : BriefResult (validateChunkUpload c) :=
  failIf_brief (by decide) <| failIf_brief (by decide) <| failIf_brief (by decide) <|
    failIf_brief (by decide) check_ok_brief

theorem putChunk_brief (c : ChunkUpload) : BriefResult (putChunk H s now c).2 := by
  have hvalid := validateChunkUpload_brief c
  unfold putChunk
  generalize validateChunkUpload c = x at hvalid ⊢
  rcases x with e | ⟨⟩
  · exact hvalid
  · refine onTransfer_brief s now _ fun s t => ?_
    have hcheck := checkChunk_brief H t c
    generalize checkChunk H t c = x at hcheck ⊢
    rcases x with e | ⟨⟩
    · exact hcheck
    · dsimp only
      cases t.chunks.lookup c.index.toNat with
      | some old =>
        dsimp only
        split_ifs
        · trivial
        · exact (by decide : "chunk exists with different bytes".utf8ByteSize ≤ 128)
      | none =>
        dsimp only
        split_ifs
        · exact (by decide : "mailbox byte quota".utf8ByteSize ≤ 128)
        · trivial
        · trivial

theorem completeTransfer_brief (r : TransferComplete) :
    BriefResult (completeTransfer s now r).2 := by
  have hvalid := validateTransferComplete_brief r
  unfold completeTransfer
  generalize validateTransferComplete r = x at hvalid ⊢
  rcases x with e | ⟨⟩
  · exact hvalid
  · refine onTransfer_brief s now _ fun s t => ?_
    split_ifs
    · trivial
    · exact (by decide : "transfer cancelled".utf8ByteSize ≤ 128)
    · exact (by decide : "chunks missing".utf8ByteSize ≤ 128)
    · trivial

theorem cancelTransfer_brief (tid mid : ID) (secret : Bytes) :
    BriefResult (cancelTransfer H s now tid mid secret).2 := by
  unfold cancelTransfer
  cases s.transfers.lookup tid with
  | none => exact (by decide : "transfer not found".utf8ByteSize ≤ 128)
  | some t =>
    have hauth := ownerAuth_brief s now H t mid secret
    dsimp only
    generalize ownerAuth H s t mid secret now = x at hauth ⊢
    rcases x with e | s'
    · exact hauth
    · trivial

/-- A transfer read with the secret of its mailbox. -/
theorem owned_brief (tid mid : ID) (secret : Bytes) {read : TransferData → Result α}
    (h : ∀ t, BriefResult (read t)) :
    BriefResult (onTransfer s tid now fun s t =>
      match ownerAuth H s t mid secret now with
      | .error e => (s, .error e)
      | .ok s => (s, read t)).2 := by
  refine onTransfer_brief s now tid fun s t => ?_
  have hauth := ownerAuth_brief s now H t mid secret
  generalize ownerAuth H s t mid secret now = x at hauth ⊢
  rcases x with e | s'
  · exact hauth
  · exact h t

/-- A transfer read with its ticket. -/
theorem ticketed_brief (tid : ID) (ticket : Bytes) {read : TransferData → Result α}
    (h : ∀ t, BriefResult (read t)) :
    BriefResult (onTransfer s tid now fun s t =>
      match checkTicketLocked H t ticket with
      | .error e => (s, .error e)
      | .ok () => (s, read t)).2 := by
  refine onTransfer_brief s now tid fun s t => ?_
  have hcheck := checkTicketLocked_brief H t ticket
  generalize checkTicketLocked H t ticket = x at hcheck ⊢
  rcases x with e | ⟨⟩
  · exact hcheck
  · exact h t

/-- An answer is no error or a brief one. -/
def StoreCall.Brief : (c : StoreCall) → c.Answer → Prop
  | createMailbox _ _, _ => True
  | mailboxExists _, _ => True
  | checkAndMarkReplay _, _ => True
  | sendMessage _, r => BriefResult r
  | receiveMessages _ _ _ _, r => BriefResult r
  | ackMessages _ _ _ _, r => BriefResult r
  | createTransfer _, r => BriefResult r
  | putChunk _, r => BriefResult r
  | progress _, r => BriefResult r
  | getChunk _ _ _ _, r => BriefResult r
  | getChunkByTicket _ _ _, r => BriefResult r
  | resume _ _ _, r => BriefResult r
  | resumeByTicket _ _, r => BriefResult r
  | getTransfer _, r => BriefResult r
  | completeTransfer _, r => BriefResult r
  | cancelTransfer _ _ _, r => BriefResult r

/-- The errors of the store are brief. -/
theorem StoreCall.brief_run (env : Env) (c : StoreCall) : c.Brief (c.run H s env).2 := by
  cases c with
  | createMailbox _ _ => trivial
  | mailboxExists _ => trivial
  | checkAndMarkReplay _ => trivial
  | sendMessage msg => exact sendMessage_brief s env.now msg env.id
  | receiveMessages mid secret limit peek =>
    exact receiveMessages_brief s env.now H mid secret limit peek
  | ackMessages mid secret ids disposition =>
    exact ackMessages_brief s env.now H mid secret ids disposition
  | createTransfer t => exact createTransfer_brief s env.now H t env.id env.draw
  | putChunk c => exact putChunk_brief s env.now H c
  | progress tid => exact onTransfer_brief s env.now tid fun _ _ => trivial
  | getChunk tid mid secret index =>
    exact owned_brief s env.now H tid mid secret fun t => readChunk_brief t index.toNat
  | getChunkByTicket tid ticket index =>
    exact ticketed_brief s env.now H tid ticket fun t => readChunk_brief t index.toNat
  | resume tid mid secret => exact owned_brief s env.now H tid mid secret fun _ => trivial
  | resumeByTicket tid ticket => exact ticketed_brief s env.now H tid ticket fun _ => trivial
  | getTransfer tid => exact onTransfer_brief s env.now tid fun _ _ => trivial
  | completeTransfer r => exact completeTransfer_brief s env.now r
  | cancelTransfer tid mid secret => exact cancelTransfer_brief s env.now H tid mid secret

end Store

/-- The answer to a call of a handler is no error or a brief one. -/
def RelayCall.Brief : (c : RelayCall) → c.Answer → Prop
  | .store _ c, a => c.Brief a
  | _, _ => True

theorem serveCall_brief (H : Bytes → Digest) (s : Relay) (env : Env) (c : RelayCall) :
    c.Brief (serveCall H s env c).2 := by
  cases c with
  | store i c => exact c.brief_run (s.stores i) H env
  | _ => trivial

end FileRelay

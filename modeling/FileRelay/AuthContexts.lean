import FileRelay.BridgeOps
import FileRelay.Requests

/-!
# Auth contexts of a download

A download or a resume authenticates by ticket, or by mailbox and read secret. Three checks
decide on the same three strings : `ValidateChunkDownload` and `ValidateResumeRequest` of the
protocol package and `checkResumeAuth` of the bridge. The first two look at the ticket only if
it has 32 bytes, and `Marshal` then leaves it out.

`auth_contexts_agree_iff` says when the three agree, accept exactly one context, and nothing is
left out : unless a ticket of another length comes with a good mailbox and secret.
-/

namespace FileRelay

open NanoPack (Codec)

/-- A ticket alone, or a mailbox and its secret alone. -/
def OneContext (mailboxID readSecret ticket : Bytes) : Prop :=
  (ticket.length = 32 ∧ mailboxID = [] ∧ readSecret = []) ∨
    (ticket = [] ∧ mailboxID.length = 16 ∧ readSecret.length = 32)

section Contexts

theorem checkResumeAuth_eq_ok_iff (mailboxID readSecret ticket : Bytes) :
    checkResumeAuth mailboxID readSecret ticket = .ok () ↔
      OneContext mailboxID readSecret ticket := by
  unfold checkResumeAuth OneContext
  by_cases hticket : ticket.length = 32
  · have hne : ticket ≠ [] := by
      rintro rfl
      cases hticket
    rw [if_pos hticket]
    split_ifs with hmixed
    · refine ⟨nofun, ?_⟩
      rintro (⟨-, rfl, rfl⟩ | ⟨h, -⟩)
      · simp at hmixed
      · exact absurd h hne
    · rw [not_or, not_not, not_not, List.length_eq_zero_iff, List.length_eq_zero_iff] at hmixed
      exact ⟨fun _ => .inl ⟨hticket, hmixed⟩, fun _ => rfl⟩
  · rw [if_neg hticket]
    split_ifs with hother hbad
    · refine ⟨nofun, ?_⟩
      rintro (⟨h, -⟩ | ⟨rfl, -⟩)
      · exact absurd h hticket
      · exact absurd rfl hother
    · refine ⟨nofun, ?_⟩
      rintro (⟨h, -⟩ | ⟨-, hmid, hsecret⟩)
      · exact absurd h hticket
      · exact absurd hbad (not_or.mpr ⟨not_not.mpr hmid, not_not.mpr hsecret⟩)
    · rw [not_not, List.length_eq_zero_iff] at hother
      rw [not_or, not_not, not_not] at hbad
      exact ⟨fun _ => .inr ⟨hother, hbad⟩, fun _ => rfl⟩

/-- What the protocol package accepts : the bridge's contexts, and a mailbox with its secret
next to a ticket of another length. -/
def LooseContext (mailboxID readSecret ticket : Bytes) : Prop :=
  (ticket.length = 32 ∧ mailboxID.length = 0 ∧ readSecret.length = 0) ∨
    (ticket.length ≠ 32 ∧ mailboxID.length = 16 ∧ readSecret.length = 32)

theorem validateResumeRequest_eq_ok_iff {transferID : Bytes} (hid : transferID.length = 16)
    (mailboxID readSecret ticket : Bytes) :
    validateResumeRequest ⟨transferID, mailboxID, readSecret, ticket⟩ = .ok () ↔
      LooseContext mailboxID readSecret ticket := by
  refine ⟨fun h => (credentials_of_validateResumeRequest h).2, ?_⟩
  unfold validateResumeRequest ResumeRequest.ticketMode
  rintro (⟨hticket, hmid, hsecret⟩ | ⟨hticket, hmid, hsecret⟩)
  · simp [failIf, hid, hticket, hmid, hsecret]
  · simp [failIf, hid, hticket, hmid, hsecret]

variable {transferID mailboxID readSecret ticket : Bytes} {index count : UInt32}

theorem validateChunkDownload_eq_ok_iff (hid : transferID.length = 16)
    (hrange : validateChunkDownloadRange
      ⟨transferID, index, count, mailboxID, readSecret, ticket⟩ = .ok ()) :
    validateChunkDownload ⟨transferID, index, count, mailboxID, readSecret, ticket⟩ = .ok () ↔
      LooseContext mailboxID readSecret ticket := by
  refine ⟨fun h => (credentials_of_validateChunkDownload h).2, ?_⟩
  unfold validateChunkDownload ChunkDownload.ticketMode
  rintro (⟨hticket, hmid, hsecret⟩ | ⟨hticket, hmid, hsecret⟩)
  · simp [failIf, hid, hticket, hmid, hsecret, hrange]
  · simp [failIf, hid, hticket, hmid, hsecret, hrange]

/-- A ticket of a length that is neither that of a ticket nor that of none, next to a mailbox
and a secret of the right lengths. -/
def StrayTicket (mailboxID readSecret ticket : Bytes) : Prop :=
  ¬PlainTicket ticket ∧ mailboxID.length = 16 ∧ readSecret.length = 32

theorem looseContext_iff (h : ¬StrayTicket mailboxID readSecret ticket) :
    LooseContext mailboxID readSecret ticket ↔ OneContext mailboxID readSecret ticket := by
  unfold LooseContext OneContext
  constructor
  · rintro (⟨hticket, hmid, hsecret⟩ | ⟨hticket, hmid, hsecret⟩)
    · exact .inl ⟨hticket, List.length_eq_zero_iff.mp hmid, List.length_eq_zero_iff.mp hsecret⟩
    · have hplain : PlainTicket ticket := by
        by_contra hplain
        exact h ⟨hplain, hmid, hsecret⟩
      exact .inr ⟨List.length_eq_zero_iff.mp (hplain.resolve_right hticket), hmid, hsecret⟩
  · rintro (⟨hticket, rfl, rfl⟩ | ⟨rfl, hmid, hsecret⟩)
    · exact .inl ⟨hticket, rfl, rfl⟩
    · exact .inr ⟨by simp, hmid, hsecret⟩

theorem OneContext.plainTicket (h : OneContext mailboxID readSecret ticket) :
    PlainTicket ticket := by
  rcases h with ⟨hticket, -⟩ | ⟨rfl, -⟩
  · exact .inr hticket
  · exact .inl rfl

/-- A stray ticket is in no context, and the protocol package accepts it. -/
theorem StrayTicket.not_oneContext (h : StrayTicket mailboxID readSecret ticket) :
    ¬OneContext mailboxID readSecret ticket :=
  fun hone => h.1 hone.plainTicket

theorem StrayTicket.looseContext (h : StrayTicket mailboxID readSecret ticket) :
    LooseContext mailboxID readSecret ticket :=
  .inr ⟨fun hticket => h.1 (.inr hticket), h.2⟩

end Contexts

/-- The protocol validators accept one context only, agree with the bridge, and what `Marshal`
writes is read back with all its credentials. -/
structure ContextsAgree (np : Codec) (transferID mailboxID readSecret ticket : Bytes)
    (index count : UInt32) : Prop where
  download_one : validateChunkDownload
    ⟨transferID, index, count, mailboxID, readSecret, ticket⟩ = .ok () →
      OneContext mailboxID readSecret ticket
  resume_one : validateResumeRequest ⟨transferID, mailboxID, readSecret, ticket⟩ = .ok () →
    OneContext mailboxID readSecret ticket
  download_bridge : validateChunkDownload
    ⟨transferID, index, count, mailboxID, readSecret, ticket⟩ = .ok () ↔
      checkResumeAuth mailboxID readSecret ticket = .ok ()
  resume_bridge : validateResumeRequest ⟨transferID, mailboxID, readSecret, ticket⟩ = .ok () ↔
    checkResumeAuth mailboxID readSecret ticket = .ok ()
  download_kept : ∀ body, marshalChunkDownload np
    ⟨transferID, index, count, mailboxID, readSecret, ticket⟩ = .ok body →
      unmarshalChunkDownload np body =
        .ok ⟨transferID, index, count, mailboxID, readSecret, ticket⟩
  resume_kept : ∀ body, marshalResumeRequest np
    ⟨transferID, mailboxID, readSecret, ticket⟩ = .ok body →
      unmarshalResumeRequest np body = .ok ⟨transferID, mailboxID, readSecret, ticket⟩

/-- For every transfer id, index and count that are valid and all credentials : the validators
and the bridge agree on exactly one context, and `Marshal` drops nothing, if and only if there
is no ticket of another length than 0 and 32 next to a good mailbox and secret. -/
theorem auth_contexts_agree_iff (np : Codec) (hnp : np.Lawful)
    (transferID mailboxID readSecret ticket : Bytes) (index count : UInt32)
    (hid : transferID.length = 16)
    (hrange : validateChunkDownloadRange
      ⟨transferID, index, count, mailboxID, readSecret, ticket⟩ = .ok ()) :
    ContextsAgree np transferID mailboxID readSecret ticket index count ↔
      ¬(ticket.length ≠ 0 ∧ ticket.length ≠ 32 ∧ mailboxID.length = 16 ∧
        readSecret.length = 32) := by
  have hstray : StrayTicket mailboxID readSecret ticket ↔ ticket.length ≠ 0 ∧
      ticket.length ≠ 32 ∧ mailboxID.length = 16 ∧ readSecret.length = 32 := by
    rw [StrayTicket, PlainTicket, not_or, and_assoc]
  have hdownload := validateChunkDownload_eq_ok_iff hid hrange
  have hresume := validateResumeRequest_eq_ok_iff hid mailboxID readSecret ticket
  rw [← hstray]
  constructor
  · intro hagree hs
    exact hs.not_oneContext (hagree.resume_one (hresume.mpr hs.looseContext))
  · intro hs
    have hloose := looseContext_iff hs
    have hone := checkResumeAuth_eq_ok_iff mailboxID readSecret ticket
    refine ⟨fun h => hloose.mp (hdownload.mp h), fun h => hloose.mp (hresume.mp h),
      by rw [hdownload, hloose, hone], by rw [hresume, hloose, hone], fun body h => ?_,
      fun body h => ?_⟩
    · have hcheck := (chunkDownloadCodec_lawful.marshal_eq_ok hnp).mp h
      have hplain := (hloose.mp (hdownload.mp (wireCheck_eq_ok.mp hcheck.1))).plainTicket
      exact ((chunkDownloadCodec_lawful.agree hnp).round_trip _ _ hplain h).2.2.2
    · have hcheck := (resumeRequestCodec_lawful.marshal_eq_ok hnp).mp h
      have hplain := (hloose.mp (hresume.mp (wireCheck_eq_ok.mp hcheck.1))).plainTicket
      exact ((resumeRequestCodec_lawful.agree hnp).round_trip _ _ hplain h).2.2.2

/-- A download by ticket. -/
theorem ticket_contexts_agree :
    ContextsAgree NanoPack.reference (List.replicate 16 1) [] [] (List.replicate 32 4) 0 1 :=
  (auth_contexts_agree_iff NanoPack.reference NanoPack.reference_lawful (List.replicate 16 1) [] []
    (List.replicate 32 4) 0 1 rfl (by decide)).mpr (by decide)

/-- A ticket of three bytes next to a mailbox and its secret : the protocol package accepts the
request and leaves the ticket out, and the bridge refuses it. -/
theorem stray_ticket_dropped :
    validateChunkDownload ⟨List.replicate 16 1, 0, 1, List.replicate 16 2, List.replicate 32 3,
        [1, 2, 3]⟩ = .ok () ∧
      validateResumeRequest ⟨List.replicate 16 1, List.replicate 16 2, List.replicate 32 3,
        [1, 2, 3]⟩ = .ok () ∧
      checkResumeAuth (List.replicate 16 2) (List.replicate 32 3) [1, 2, 3] =
        .error "rpc: ticket must be 32 bytes" ∧
      ∃ body, marshalResumeRequest NanoPack.reference ⟨List.replicate 16 1, List.replicate 16 2,
          List.replicate 32 3, [1, 2, 3]⟩ = .ok body ∧
        unmarshalResumeRequest NanoPack.reference body = .ok ⟨List.replicate 16 1,
          List.replicate 16 2, List.replicate 32 3, []⟩ := by
  have hstray : marshalResumeRequest NanoPack.reference ⟨List.replicate 16 1,
      List.replicate 16 2, List.replicate 32 3, [1, 2, 3]⟩ = .ok _ :=
    (resumeRequestCodec_lawful.marshal_eq_ok NanoPack.reference_lawful).mpr ⟨by decide, rfl⟩
  have hplain : marshalResumeRequest NanoPack.reference ⟨List.replicate 16 1,
      List.replicate 16 2, List.replicate 32 3, []⟩ = .ok _ :=
    (resumeRequestCodec_lawful.marshal_eq_ok NanoPack.reference_lawful).mpr ⟨by decide, rfl⟩
  refine ⟨by decide, by decide, by decide, _, hstray, ?_⟩
  exact ((resumeRequestCodec_lawful.agree NanoPack.reference_lawful).round_trip _ _ (.inl rfl)
    hplain).2.2.2

end FileRelay

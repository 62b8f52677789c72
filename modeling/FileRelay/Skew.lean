import FileRelay.Auth
import Mathlib.Algebra.Order.Group.Abs

/-!
# The clock skew window

`CheckSkew` and the copy of its test inside `VerifyMsgSend` convert the timestamp to
`int64`, subtract it from the clock and negate a negative difference. Each of the three
can wrap. Over a clock that has not passed the end of `int64` the test is
`| now - ts | ≤ 30000` except at two places : the timestamp `2 ^ 63` after the clock, where
the negation gives back the least `int64`, and the timestamps that end less than the skew
before `2 ^ 64` plus the clock, which a clock in the first 30 seconds of 1970 takes for
negative ones (`skew_exact_iff`).
-/

namespace FileRelay

/-- The absolute difference of clock and timestamp is within the skew. -/
def InWindow (ts : UInt64) (now : ℤ) : Prop :=
  |now - ts.toNat| ≤ maxClockSkewMillis

instance (ts : UInt64) (now : ℤ) : Decidable (InWindow ts now) :=
  inferInstanceAs (Decidable (_ ≤ _))

/-- The test passes within the skew, and where the conversion, the subtraction or the
negation wraps. -/
theorem checkSkew_eq_ok_iff {ts : UInt64} {now : ℤ} (h0 : 0 ≤ now) (h1 : now < 2 ^ 63) :
    checkSkew ts now = .ok () ↔
      InWindow ts now ∨ (ts.toNat : ℤ) = now + 2 ^ 63 ∨
        2 ^ 64 + now ≤ ts.toNat + maxClockSkewMillis := by
  have hts : (ts.toNat : ℤ) < 2 ^ 64 := by exact_mod_cast ts.toNat_lt
  have hts0 : (0 : ℤ) ≤ ts.toNat := Int.natCast_nonneg _
  unfold checkSkew InWindow
  rw [abs_le]
  simp only [failIf_eq_ok, not_lt, and_true]
  generalize (ts.toNat : ℤ) = u at *
  unfold maxClockSkewMillis toInt64 Int.bmod
  simp only [Nat.reducePow, Nat.cast_ofNat, Int.reducePow] at *
  split_ifs <;> omega

/-! ## The copy in `VerifyMsgSend` -/

variable (H : Bytes → Digest) (verify : Verifier)

/-- `VerifyMsgSend` as written, with its own copy of the skew test. -/
def verifyMsgSendInlined (pub : Bytes) (mailboxID : ID) (timestampMS : UInt64)
    (nonce : ByteArr 16) (envelope sig : Bytes) (nowMillis : ℤ) : Check :=
  failIf (pub.length ≠ 32 ∨ sig.length ≠ 64) .authFailed "bad pub/sig length" <|
  failIf (verify pub (canonicalMsgSend H (copyArr 32 pub) mailboxID timestampMS nonce envelope)
    sig = false) .authFailed "signature verification failed" <|
  let dt := toInt64 (nowMillis - toInt64 timestampMS.toNat)
  let dt := if dt < 0 then toInt64 (-dt) else dt
  failIf (maxClockSkewMillis < dt) .expiredRequest "timestamp outside skew window" <|
  .ok ()

theorem verifyMsgSendInlined_eq (pub : Bytes) (mailboxID : ID) (ts : UInt64) (nonce : ByteArr 16)
    (envelope sig : Bytes) (now : ℤ) :
    verifyMsgSendInlined H verify pub mailboxID ts nonce envelope sig now =
      verifyMsgSend H verify pub mailboxID ts nonce envelope sig now :=
  rfl

/-- A message whose signature verifies is judged by the skew test alone. -/
theorem verifyMsgSend_signed {pub : Bytes} {mailboxID : ID} {ts : UInt64} {nonce : ByteArr 16}
    {envelope sig : Bytes} (now : ℤ) (hp : pub.length = 32) (hs : sig.length = 64)
    (hv : verify pub (canonicalMsgSend H (copyArr 32 pub) mailboxID ts nonce envelope) sig =
      true) :
    verifyMsgSend H verify pub mailboxID ts nonce envelope sig now = checkSkew ts now := by
  simp [verifyMsgSend, verifySigned, failIf, hp, hs, hv]

/-- The skew test is exact, and so is its copy. -/
def SkewExact (ts : UInt64) (now : ℤ) : Prop :=
  (checkSkew ts now = .ok () ↔ InWindow ts now) ∧
    ∀ (H : Bytes → Digest) (verify : Verifier) (pub : Bytes) (mailboxID : ID)
      (nonce : ByteArr 16) (envelope sig : Bytes), pub.length = 32 → sig.length = 64 →
      verify pub (canonicalMsgSend H (copyArr 32 pub) mailboxID ts nonce envelope) sig = true →
      verifyMsgSendInlined H verify pub mailboxID ts nonce envelope sig now = checkSkew ts now

/-- Over the non-negative `int64` the test is exact but for the two places where its
arithmetic wraps. -/
theorem skew_exact_iff (ts : UInt64) (now : ℤ) (h0 : 0 ≤ now) (h1 : now < 2 ^ 63) :
    SkewExact ts now ↔
      (ts.toNat : ℤ) ≠ now + 2 ^ 63 ∧ (ts.toNat : ℤ) + maxClockSkewMillis < 2 ^ 64 + now := by
  have hcopy : SkewExact ts now ↔ (checkSkew ts now = .ok () ↔ InWindow ts now) := by
    refine ⟨fun h => h.1, fun h => ⟨h, ?_⟩⟩
    intro H verify pub mailboxID nonce envelope sig hp hs hv
    rw [verifyMsgSendInlined_eq]
    exact verifyMsgSend_signed H verify now hp hs hv
  have hts : (ts.toNat : ℤ) < 2 ^ 64 := by exact_mod_cast ts.toNat_lt
  have hwin : InWindow ts now → (ts.toNat : ℤ) ≠ now + 2 ^ 63 ∧
      (ts.toNat : ℤ) + maxClockSkewMillis < 2 ^ 64 + now := by
    unfold InWindow maxClockSkewMillis
    rw [abs_le]
    omega
  rw [hcopy, checkSkew_eq_ok_iff h0 h1]
  constructor
  · intro h
    by_contra hc
    have hw := h.mp (Or.inr (by omega))
    exact hc (hwin hw)
  · rintro ⟨h2, h3⟩
    refine ⟨fun h => ?_, Or.inl⟩
    rcases h with h | h | h
    · exact h
    · exact absurd h h2
    · omega

/-- A timestamp ten seconds before the clock is judged exactly. -/
theorem skew_exact_iff_recent : SkewExact 1749999990000 1750000000000 :=
  (skew_exact_iff 1749999990000 1750000000000 (by decide) (by decide)).mpr
    ⟨by decide, by decide⟩

/-- The timestamp `2 ^ 63` passes at the start of 1970, since the difference is the least
`int64` and its own negation. -/
theorem skew_wraps : checkSkew 9223372036854775808 0 = .ok () ∧
    ¬InWindow 9223372036854775808 0 ∧ ¬SkewExact 9223372036854775808 0 := by
  have hok : checkSkew 9223372036854775808 0 = .ok () := by decide
  have hw : ¬InWindow 9223372036854775808 0 := by decide
  exact ⟨hok, hw, fun h => hw (h.1.mp hok)⟩

end FileRelay

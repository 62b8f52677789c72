import FileRelay.Isolation
import FileRelay.Queue

/-!
# The count caps of a mailbox

`SendMessage` and `CreateTransfer` check two counts when they add something : messages
stored, and transfers that are open and before their deadline. `count_caps_hold` says that
the checks bound the counts at all times. No other call adds a message. A put extends a
deadline, but only of a transfer that was counted already (`active_step_le`), and the count
only falls as the clock advances (`activeTransfersLocked_mono`).
-/

namespace FileRelay

variable (H : Bytes → Digest)

/-! ## Messages -/

/-- No mailbox holds more than `MaxQueuedMessages`. -/
def QueueCap (s : MemStore) : Prop :=
  ∀ mid, (messagesOf s mid).length ≤ maxQueuedMessages

theorem queueCap_step (s : MemStore) (e : Event) (inv : QueueCap s) :
    QueueCap ((store H).step s e).1 := by
  intro mid
  rcases messages_step H s e mid with hsub | ⟨msg, id, mb, -, -, -, -, -, hn, -, hsent⟩
  · exact hsub.length_le.trans (inv mid)
  · rw [messagesOf_enqueue hsent, List.length_append, List.length_singleton]
    exact hn

/-! ## Active transfers -/

/-- What a transfer adds to the active transfers of a mailbox. -/
def activeWeight (mid : ID) (now : ℤ) (_ : ID) (t : TransferData) : ℕ :=
  if t.boundTo mid && t.state.isOpen && decide (now < t.expiresAt) then 1 else 0

theorem activeWeight_le_one (mid : ID) (now : ℤ) (tid : ID) (t : TransferData) :
    activeWeight mid now tid t ≤ 1 := by
  unfold activeWeight
  split_ifs
  · exact Nat.le_refl 1
  · exact Nat.zero_le 1

theorem activeWeight_eq_zero {mid : ID} {now : ℤ} (tid : ID) {t : TransferData}
    (h : t.boundTo mid = true → t.state.isOpen = true → ¬now < t.expiresAt) :
    activeWeight mid now tid t = 0 := by
  refine if_neg fun hc => ?_
  simp only [Bool.and_eq_true, decide_eq_true_eq] at hc
  exact h hc.1.1 hc.1.2 hc.2

/-- Fewer transfers are active at a later time. -/
theorem activeTransfersLocked_mono {s : MemStore} {mid : ID} {now now' : ℤ} (h : now ≤ now') :
    activeTransfersLocked s mid now' ≤ activeTransfersLocked s mid now := by
  refine GoMap.sumBy_mono fun tid t _ => ?_
  split_ifs with h' hn
  · exact Nat.le_refl 1
  · simp only [Bool.and_eq_true, decide_eq_true_eq] at h' hn
    exact absurd ⟨h'.1, lt_of_le_of_lt h h'.2⟩ hn
  all_goals exact Nat.zero_le _

/-- A put leaves a transfer as active as it was. -/
theorem activeWeight_storeChunk {mid : ID} {now : ℤ} (tid : ID) {t : TransferData}
    {c : ChunkUpload} (hc : checkChunk H t c = .ok ())
    (hl : t.state ≠ .complete → now < t.expiresAt) :
    activeWeight mid now tid (storeChunk H t c now) ≤ activeWeight mid now tid t := by
  obtain ⟨⟨hs, -⟩, -⟩ := (checkChunk_eq_ok H).mp hc
  by_cases hact : t.boundTo mid = true ∧ t.state.isOpen = true
  · have hone : activeWeight mid now tid t = 1 := if_pos (by simp [hact, hl hs])
    rw [hone]
    exact activeWeight_le_one ..
  · refine Nat.le_trans (Nat.le_of_eq (activeWeight_eq_zero tid fun hb ho => absurd ?_ hact))
      (Nat.zero_le _)
    -- an upload opens no transfer that was not open
    have hstate : (storeChunk H t c now).state =
        if t.state = .created then .uploading else t.state := rfl
    refine ⟨hb, ?_⟩
    rw [hstate] at ho
    split_ifs at ho with hcr
    · rw [hcr]
      rfl
    · exact ho

/-- One call makes a transfer active only by creating it for a mailbox with room. -/
theorem active_step_le (s : MemStore) (e : Event) (mid tid : ID) :
    GoMap.valueAt (activeWeight mid e.now) ((store H).step s e).1.transfers tid ≤
        GoMap.valueAt (activeWeight mid e.now) s.transfers tid ∨
      (∃ r ticket, e.op = .createTransfer r tid (some ticket)) ∧
        activeTransfersLocked s mid e.now < maxActiveTransfersPerMailbox ∧
        GoMap.valueAt (activeWeight mid e.now) ((store H).step s e).1.transfers tid ≤ 1 := by
  have step := step_transfer H s e tid
  unfold GoMap.valueAt
  generalize ((store H).step s e).1.transfers.lookup tid = o at step ⊢
  rcases step with _ | ⟨r, ticket, hop, -, hq, -⟩ | ⟨h, -, -⟩ | ⟨c, -, -, -, h, hl, hc, -, -, -⟩ |
    ⟨r, -, -, h, -⟩ | _ | _
  · exact Or.inl (Nat.le_refl _)
  · by_cases hb : (createdTransfer H r ticket e.now).boundTo mid = true
    · obtain ⟨hlen, hmid⟩ := namedID_eq_some.mp ((boundTo_createdTransfer H ticket e.now).mp hb)
      obtain ⟨-, hlt, -⟩ := createTransferQuota_eq_ok.mp (hq hlen)
      rw [hmid] at hlt
      exact Or.inr ⟨⟨r, ticket, hop⟩, hlt, activeWeight_le_one mid e.now tid _⟩
    · rw [Option.elim_some, activeWeight_eq_zero tid fun h => absurd h hb]
      exact Or.inl (Nat.zero_le _)
  · rw [Option.elim_some, activeWeight_eq_zero tid fun _ ho => by cases ho]
    exact Or.inl (Nat.zero_le _)
  · rw [h, Option.elim_some, Option.elim_some]
    exact Or.inl (activeWeight_storeChunk H tid hc hl)
  · rw [Option.elim_some, activeWeight_eq_zero tid fun _ ho => by cases ho]
    exact Or.inl (Nat.zero_le _)
  · exact Or.inl (Nat.zero_le _)
  · exact Or.inl (Nat.zero_le _)

/-- No mailbox has more than `MaxActiveTransfersPerMailbox` active transfers. -/
def ActiveCap (now : ℤ) (s : MemStore) : Prop :=
  ∀ mid, activeTransfersLocked s mid now ≤ maxActiveTransfersPerMailbox

theorem activeCap_step (s : MemStore) (e : Event) (inv : ActiveCap e.now s) :
    ActiveCap e.now ((store H).step s e).1 := by
  intro mid
  have hsum := GoMap.sumBy_le_or_of_valueAt (activeWeight mid e.now) s.transfers
    ((store H).step s e).1.transfers (p := fun tid n =>
      (∃ r ticket, e.op = .createTransfer r tid (some ticket)) ∧
      activeTransfersLocked s mid e.now < maxActiveTransfersPerMailbox ∧ n = 1) ?_ fun tid => ?_
  · rcases hsum with hle | ⟨tid, n, ⟨-, hlt, rfl⟩, hle⟩
    · exact hle.trans (inv mid)
    · exact hle.trans hlt
  · rintro tid n tid' n' ⟨⟨r, ticket, hop⟩, -⟩ ⟨⟨r', ticket', hop'⟩, -⟩
    cases hop.symm.trans hop'
    rfl
  · rcases active_step_le H s e mid tid with hle | ⟨hop, hlt, hle⟩
    · exact Or.inl hle
    · exact Or.inr ⟨1, ⟨hop, hlt, rfl⟩, hle.trans (Nat.le_add_left _ _)⟩

/-- Over every run whose clock never goes back, at every time from the last call on, every
mailbox holds at most 100 messages and has at most 16 open transfers that have not expired. -/
theorem count_caps_hold (H : Bytes → Digest) (es : List Event) (now : ℤ)
    (hclock : ClockMonotone es) (hnow : ∀ e ∈ es, e.now ≤ now) (mid : ID) :
    (messagesOf (runStore H es) mid).length ≤ maxQueuedMessages ∧
      activeTransfersLocked (runStore H es) mid now ≤ maxActiveTransfersPerMailbox := by
  constructor
  · exact Machine.run_induction (P := QueueCap) (queueCap_step H) (fun mid => Nat.zero_le _) es mid
  · exact Machine.clock_induction (P := ActiveCap) (fun now mid => Nat.zero_le _)
      (fun hle inv mid => (activeTransfersLocked_mono hle).trans (inv mid))
      (fun s e _ => activeCap_step H s e) hclock hnow mid

theorem count_caps_hold_twoMailboxes :
    activeTransfersLocked (runStore sampleHash twoMailboxes) (copyArr 16 [1]) 5 = 1 ∧
      (messagesOf (runStore sampleHash twoMailboxes) (copyArr 16 [1])).length ≤
        maxQueuedMessages ∧
      activeTransfersLocked (runStore sampleHash twoMailboxes) (copyArr 16 [1]) 5 ≤
        maxActiveTransfersPerMailbox :=
  ⟨by decide +kernel, count_caps_hold sampleHash twoMailboxes 5
    (by unfold ClockMonotone; decide +kernel) (by decide +kernel) _⟩

end FileRelay

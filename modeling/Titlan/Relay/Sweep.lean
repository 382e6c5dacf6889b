import Titlan.Foundation.Queue
import Titlan.Relay.Accounting
import Titlan.Relay.Retention

/-! # Sweeping

The sweep pops messages off the front of each queue while they have outlived the TTL, and drops a mailbox
whose last activity has. Neither looks at the messages behind the front. That it is the same as dropping
every expired message and no other rests on the order of the table: queues are sorted by the time of deposit,
whatever was acked out of the middle, and no message is younger than its mailbox's last activity. -/

namespace Titlan.Relay

open Foundation

/-- In a sorted queue what expires stands in front of what does not. -/
theorem Mailbox.Dated.kept_eq_filter {clock ttl : ℕ} {m : Mailbox} (h : m.Dated clock) (now : ℕ) :
    m.kept ttl now = m.queue.filter fun msg => !msg.expired ttl now := by
  refine dropWhile_eq_filter (h.sorted.imp fun {a b} hle hb => ?_)
  simp only [QueuedMsg.expired, decide_eq_true_eq] at hb ⊢
  omega

namespace Server

variable {s s' : Server}

/-- **A sweep is exactly expiry.** In every state the relay can reach, a sweep that read its time at any
earlier instant opens no mailbox, removes exactly those whose last activity is older than the TTL at that
time, leaves of every other queue the messages that are not, in their order; so exactly the messages not
older than the TTL stay queued. -/
theorem sweep_is_expiry {cfg : Config} {hasher : Bytes → UInt64} {labels : List Label} {n : ℕ} {e : Env}
    {now : ℕ} (hrun : run step (start cfg hasher) labels = some s)
    (ht : s.tasks[n]? = some (.sweepBoxes now)) (hstep : s.step (.act n e) = some s') (id : String) :
    (s.app.boxes.lookup id = none → s'.app.boxes.lookup id = none) ∧
    ∀ m, s.app.boxes.lookup id = some m →
      (s'.app.boxes.lookup id = none ↔ ∃ last, m.lastActivity = some last ∧ s.app.cfg.ttl < now - last) ∧
      (∀ m', s'.app.boxes.lookup id = some m' →
        m'.queue = m.queue.filter fun msg => ¬ s.app.cfg.ttl < now - msg.depositedAt) ∧
      ∀ msg ∈ m.queue, s'.Queued id msg ↔ ¬ s.app.cfg.ttl < now - msg.depositedAt := by
  have hboxes := boxes_of_sweep ht hstep id
  refine ⟨fun hnone => by rw [hboxes, hnone]; rfl, fun m hm => ?_⟩
  have hdated := dated_run hrun id m hm
  obtain ⟨last, hlast, -, -⟩ := hdated.active
  rw [hm, Option.bind_some, Mailbox.sweep, hdated.kept_eq_filter now] at hboxes
  have hidle : m.idle s.app.cfg.ttl now = true ↔ s.app.cfg.ttl < now - last := by
    simp only [Mailbox.idle, hlast, decide_eq_true_eq]
  have hfresh : (m.queue.filter fun msg => !msg.expired s.app.cfg.ttl now) =
      m.queue.filter fun msg => ¬ s.app.cfg.ttl < now - msg.depositedAt := by
    refine List.filter_congr fun msg _ => ?_
    rw [QueuedMsg.expired, decide_not]
  rw [hfresh] at hboxes
  by_cases hold : s.app.cfg.ttl < now - last
  · -- the mailbox goes, and with it only messages older than its last activity
    rw [if_pos (hidle.mpr hold)] at hboxes
    refine ⟨iff_of_true hboxes ⟨last, hlast, hold⟩, fun m' hm' => ?_, fun msg hmsg => ?_⟩
    · rw [hboxes] at hm'
      cases hm'
    · have hexpired := hdated.expired_of_idle (hidle.mpr hold) msg hmsg
      refine iff_of_false ?_ (not_not_intro (of_decide_eq_true hexpired))
      rintro ⟨m', hm', -⟩
      rw [hboxes] at hm'
      cases hm'
  · rw [if_neg (mt hidle.mp hold)] at hboxes
    refine ⟨iff_of_false ?_ ?_, fun m' hm' => ?_, fun msg hmsg => ?_⟩
    · rw [hboxes]
      exact Option.some_ne_none _
    · rintro ⟨last', hlast', hold'⟩
      obtain rfl := Option.some.inj (hlast.symm.trans hlast')
      exact hold hold'
    · obtain rfl := Option.some.inj (hboxes.symm.trans hm')
      rfl
    · constructor
      · rintro ⟨m', hm', hmem⟩
        obtain rfl := Option.some.inj (hboxes.symm.trans hm')
        exact of_decide_eq_true (List.mem_filter.mp hmem).2
      · intro hyoung
        exact ⟨_, hboxes, List.mem_filter.mpr ⟨hmsg, decide_eq_true hyoung⟩⟩

/-- A blob is deposited, the sweep reads its time, and before it takes the lock another blob comes in. -/
def depositBeforeSweep : List Label :=
  served (.put localhost idA) 0 2 1 ++ served (.deposit localhost idA (blobOf 7)) 1 2 2 1 ++
    [.tick, .act 2 (envAt 13 0 .nothing)] ++ served (.deposit localhost idA (blobOf 8)) 3 2 14 2

/-- The first blob is swept, the second stays. -/
theorem late_deposit_survives_sweep :
    ∃ s s' m, run step smallRelay depositBeforeSweep = some s ∧
      s.step (.act 2 (envAt 15 0 .nothing)) = some s' ∧
      s.app.boxes.lookup idA = some m ∧ m.queue = [⟨msgIdOf 1, blobOf 7, 2⟩, ⟨msgIdOf 2, blobOf 8, 14⟩] ∧
      ¬ s'.Queued idA ⟨msgIdOf 1, blobOf 7, 2⟩ ∧ s'.Queued idA ⟨msgIdOf 2, blobOf 8, 14⟩ := by
  obtain ⟨s, hs⟩ : ∃ s, run step smallRelay depositBeforeSweep = some s := ⟨_, rfl⟩
  obtain ⟨ht, m, hm, hqueue⟩ : s.tasks[2]? = some (.sweepBoxes 13) ∧ ∃ m, s.app.boxes.lookup idA = some m ∧
      m.queue = [⟨msgIdOf 1, blobOf 7, 2⟩, ⟨msgIdOf 2, blobOf 8, 14⟩] := by
    cases hs
    exact ⟨rfl, _, rfl, rfl⟩
  obtain ⟨s', hs'⟩ : ∃ s', s.step (.act 2 (envAt 15 0 .nothing)) = some s' := by
    cases hs
    exact ⟨_, rfl⟩
  have httl : s.app.cfg.ttl = 10 := by
    cases hs
    rfl
  have hqueued := ((sweep_is_expiry hs ht hs' idA).2 m hm).2.2
  rw [hqueue, httl] at hqueued
  refine ⟨s, s', m, hs, hs', hm, hqueue, ?_, ?_⟩
  · exact mt (hqueued _ List.mem_cons_self).mp (by decide)
  · exact (hqueued _ (List.mem_cons_of_mem _ List.mem_cons_self)).mpr (by decide)

end Server

end Titlan.Relay

import Mathlib.Data.List.Basic
import Titlan.Foundation.Run

/-! # Transactions

A store that is changed by statements, one at a time or in transactions. The statements of a transaction
work on a copy, which takes the place of the store when the transaction commits; a process that dies leaves
the store without the copy. So a script of transactions that is cut off anywhere leaves the store as some
number of whole transactions does. -/

namespace Foundation

variable {σ L : Type}

/-- A store and the copy an open transaction works on. -/
structure Session (σ : Type) where
  /-- What is there after a crash. -/
  durable : σ
  /-- The copy of the open transaction. -/
  pending : Option σ

/-- What a process can ask of a session. -/
inductive Command (L : Type)
  | start
  /-- A statement, in the open transaction if there is one. -/
  | statement (l : L)
  | commit

/-- One command. There is at most one transaction at a time. -/
def Session.step (exec : σ → L → Option σ) (s : Session σ) : Command L → Option (Session σ)
  | .start => if s.pending.isNone then some ⟨s.durable, some s.durable⟩ else none
  | .statement l =>
    match s.pending with
    | none => (exec s.durable l).map fun d => ⟨d, none⟩
    | some p => (exec p l).map fun p' => ⟨s.durable, some p'⟩
  | .commit => s.pending.map fun p => ⟨p, none⟩

/-- A transaction of some statements. -/
def transaction (body : List L) : List (Command L) :=
  .start :: body.map .statement ++ [.commit]

/-- Transactions one after the other. -/
def transactions (bodies : List (List L)) : List (Command L) := bodies.flatMap transaction

variable {exec : σ → L → Option σ} {d d' p p' : σ} {body : List L}

/-- Statements in an open transaction. -/
theorem run_statements (h : run exec p body = some p') :
    run (Session.step exec) ⟨d, some p⟩ (body.map .statement) = some ⟨d, some p'⟩ := by
  induction body generalizing p with
  | nil =>
    cases h
    rfl
  | cons l body ih =>
    obtain ⟨p₁, hp₁, h⟩ := Option.bind_eq_some_iff.mp h
    rw [List.map_cons, run_cons]
    show ((exec p l).map fun p' => (⟨d, some p'⟩ : Session σ)).bind _ = _
    rw [hp₁]
    exact ih h

/-- A transaction whose statements run. -/
theorem run_transaction (h : run exec d body = some d') :
    run (Session.step exec) ⟨d, none⟩ (transaction body) = some ⟨d', none⟩ := by
  show run (Session.step exec) ⟨d, some d⟩ (body.map .statement ++ [.commit]) = _
  rw [run_append, run_statements h]
  rfl

/-- A transaction that is cut off before it commits leaves the store as it was. -/
theorem run_take_transaction (h : run exec d body = some d') {n : ℕ} (hn : n < (transaction body).length) :
    ∃ p, run (Session.step exec) ⟨d, none⟩ ((transaction body).take n) = some ⟨d, p⟩ := by
  cases n with
  | zero => exact ⟨none, rfl⟩
  | succ n =>
    have hlen : n ≤ body.length := by
      simp only [transaction, List.length_append, List.length_cons, List.length_map, List.length_nil] at hn
      omega
    have htake : (transaction body).take (n + 1) = .start :: (body.take n).map .statement := by
      rw [transaction, List.cons_append, List.take_succ_cons, List.map_take,
        List.take_append_of_le_length (by rwa [List.length_map])]
    rw [← List.take_append_drop n body, run_append] at h
    obtain ⟨p, hp, -⟩ := Option.bind_eq_some_iff.mp h
    refine ⟨some p, ?_⟩
    rw [htake]
    exact run_statements hp

/-- A script of transactions whose statements all run. -/
theorem run_transactions {bodies : List (List L)} (h : run exec d bodies.flatten = some d') :
    run (Session.step exec) ⟨d, none⟩ (transactions bodies) = some ⟨d', none⟩ := by
  induction bodies generalizing d with
  | nil =>
    cases h
    rfl
  | cons body bodies ih =>
    rw [List.flatten_cons, run_append] at h
    obtain ⟨d₁, hd₁, h⟩ := Option.bind_eq_some_iff.mp h
    show run (Session.step exec) ⟨d, none⟩ (transaction body ++ transactions bodies) = _
    rw [run_append, run_transaction hd₁]
    exact ih h

/-- **Crash rule.** A script of transactions that is cut off anywhere leaves the store as the first few of
them do. -/
theorem run_take_transactions {bodies : List (List L)} (h : run exec d bodies.flatten = some d') (n : ℕ) :
    ∃ k s, run (Session.step exec) ⟨d, none⟩ ((transactions bodies).take n) = some s ∧
      run exec d (bodies.take k).flatten = some s.durable := by
  induction bodies generalizing d n with
  | nil => exact ⟨0, ⟨d, none⟩, by rw [transactions, List.flatMap_nil, List.take_nil]; rfl, rfl⟩
  | cons body bodies ih =>
    rw [List.flatten_cons, run_append] at h
    obtain ⟨d₁, hd₁, h⟩ := Option.bind_eq_some_iff.mp h
    show ∃ k s, run (Session.step exec) ⟨d, none⟩
      ((transaction body ++ transactions bodies).take n) = some s ∧ _
    obtain hn | hn := Nat.lt_or_ge n (transaction body).length
    · -- cut off in the first transaction
      obtain ⟨p, hp⟩ := run_take_transaction hd₁ hn
      exact ⟨0, ⟨d, p⟩, by rw [List.take_append_of_le_length (Nat.le_of_lt hn), hp], rfl⟩
    · obtain ⟨k, s, hs, hk⟩ := ih h (n - (transaction body).length)
      refine ⟨k + 1, s, ?_, ?_⟩
      · rw [List.take_append, List.take_of_length_le hn, run_append, run_transaction hd₁]
        exact hs
      · rw [List.take_succ_cons, List.flatten_cons, run_append, hd₁]
        exact hk

end Foundation

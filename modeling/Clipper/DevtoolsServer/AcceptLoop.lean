import Clipper.DevtoolsServer.ConnectionStream

/-! Runs of `ConnectionStream::poll_next`: the accept loop over any number of calls, each
answered by an oracle of its own, and what it keeps over whole runs. -/
namespace Clipper.DevtoolsServer
variable {σ : Type}

/-- A run of `poll_next` calls, each with the stream it started from, and the stream after. -/
structure Run (σ : Type) where
  calls : List (ConnectionStream σ × PollNext σ)
  reached : ConnectionStream σ

def run (s : ConnectionStream σ) : List (Oracle σ) → Run σ
  | [] => ⟨[], s⟩
  | o :: os =>
    let r := run (pollNext s o).stream os
    ⟨(s, pollNext s o) :: r.calls, r.reached⟩

@[simp] theorem run_nil (s : ConnectionStream σ) : run s [] = ⟨[], s⟩ := rfl

@[simp] theorem run_cons (s : ConnectionStream σ) (o : Oracle σ) (os : List (Oracle σ)) :
    run s (o :: os) =
      ⟨(s, pollNext s o) :: (run (pollNext s o).stream os).calls,
        (run (pollNext s o).stream os).reached⟩ := rfl

/-- A peer that never finishes its handshake stalls the accept loop for good: once an
upgrade is pending, while every upgrade poll answers `Pending`, each call returns `Pending`
without calling `poll_accept`, and the stream does not change. -/
theorem run_stalled_upgrade {s : ConnectionStream σ} (hs : s.next.isSome) (os : List (Oracle σ))
    (hpend : ∀ o ∈ os, o.upgrade.head = .pending) :
    (run s os).reached = s ∧
      ∀ c ∈ (run s os).calls, c.2.poll = .pending ∧ ∀ q ∈ c.2.polls, q.isAccept = false := by
  obtain ⟨p, hp⟩ := Option.isSome_iff_exists.mp hs
  induction os with
  | nil => simp
  | cons o os ih =>
    have hc : pollNext s o = ⟨.pending, s, [.upgrade p .pending]⟩ := by
      rw [pollNext_of_some s hp, hpend o (List.mem_cons_self _ _)]
    obtain ⟨hr, hcalls⟩ := ih fun o' ho => hpend o' (List.mem_cons_of_mem _ ho)
    simp only [run_cons, hc, List.mem_cons, forall_eq_or_imp]
    exact ⟨hr, by simp, hcalls⟩

theorem run_stalled_upgrade_two_peers :
    let s : ConnectionStream Nat := ⟨some (acceptAsync 0)⟩
    let os : List (Oracle Nat) := [⟨fun k => .ready (.ok (k + 1)), fun _ => .pending⟩,
      ⟨fun k => .ready (.ok (k + 2)), fun _ => .pending⟩]
    s.next.isSome ∧ (∀ o ∈ os, o.upgrade.head = .pending) ∧
      (run s os).reached = s ∧
      ∀ c ∈ (run s os).calls, c.2.poll = .pending ∧ ∀ q ∈ c.2.polls, q.isAccept = false := by
  intro s os
  have hs : s.next.isSome := rfl
  have hpend : ∀ o ∈ os, o.upgrade.head = .pending := by decide
  exact ⟨hs, hpend, run_stalled_upgrade hs os hpend⟩

end Clipper.DevtoolsServer

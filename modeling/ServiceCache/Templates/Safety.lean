import ServiceCache.Templates.Owners

/-!
# Template bookkeeping and the instances it serves

An owner thread stops its frozen host when its command channel is disconnected or when it has been
childless for the time to live. `create_instance` calls `forget` without looking, and two requests
that saw the same dead template are enough to lose the second one's replacement.
-/

namespace ServiceCache.Templates

/-- In a run whose `forget` steps are all safe, an owner about to stop its host has
nothing running that was forked from it, directly or through further forks. -/
theorem stop_spares_descendants (cfg : Config) {s : State}
    (h : (cache cfg).ReachableBy (Orderly cfg) s) {t : Nat}
    (stopping : (s.host t).phase = .stopping) :
    ∀ p, t ∈ (s.host p).ancestors → ¬ s.Running p := by
  intro p ht hrun
  have hp : p < s.nextHost := (bounded_reachable h).lt_of_ancestor ht
  exact (book_reachable h).stops t stopping ⟨p, hp, ht, hrun⟩

def expiryRun : List Event :=
  [.arrive ⟨"redis", "7"⟩ none, .call 0 .slot, .call 0 .lock, .call 0 (.check true),
    .owner 0 (.prepared true), .call 0 .filled, .call 0 .send, .owner 0 (.serveFork 0),
    .call 0 (.answer true), .call 0 .adopt, .exit 1, .report 1, .owner 0 .timeout]

theorem stop_spares_descendants_expiry :
    ∃ s, (cache ⟨id, 0⟩).ReachableBy (Orderly ⟨id, 0⟩) s ∧ (s.host 0).phase = .stopping ∧
      0 ∈ (s.host 1).ancestors ∧ ¬ s.Running 1 := by
  obtain ⟨s, hreach, hstop, hanc⟩ :
      ∃ s, (cache ⟨id, 0⟩).ReachableBy (Orderly ⟨id, 0⟩) s ∧
        (s.host 0).phase = .stopping ∧ 0 ∈ (s.host 1).ancestors :=
    Transition.System.exists_reachableBy_of_runBy (s := {}) (.init rfl)
      (show ((cache ⟨id, 0⟩).runBy _ {} expiryRun).any _ = true by decide +kernel)
  exact ⟨s, hreach, hstop, hanc, stop_spares_descendants ⟨id, 0⟩ hreach hstop 1 hanc⟩

/-- Two requests see the first template die. The first forgets it, rebuilds it and
forks an instance; the second then forgets the replacement. -/
def staleForgetRun : List Event :=
  [.arrive ⟨"redis", "7"⟩ none, .call 0 .slot, .call 0 .lock, .call 0 (.check true),
    .owner 0 (.prepared true), .call 0 .filled,
    .arrive ⟨"redis", "7"⟩ none, .call 1 .slot, .call 1 .lock, .call 1 (.check true),
    .exit 0, .owner 0 .hostGone, .owner 0 .kill, .call 0 .send, .call 1 .send,
    .call 0 .forget, .call 0 .slot, .call 0 .lock, .call 0 (.check true),
    .owner 1 (.prepared true), .call 0 .filled, .call 0 .send, .owner 1 (.serveFork 0),
    .call 0 (.answer true), .call 0 .adopt,
    .call 1 .forget, .owner 1 .disconnected]

/-- The replacement's owner is about to stop its host under the running instance. -/
theorem stale_forget_stops_served_instance :
    ∃ s, (cache ⟨id, 600⟩).Reachable s ∧ (s.host 1).phase = .stopping ∧
      1 ∈ (s.host 2).ancestors ∧ s.Running 2 := by
  exact Transition.System.exists_reachable_of_run (s := {}) (.init rfl)
    (show ((cache ⟨id, 600⟩).run {} staleForgetRun).any _ = true by decide +kernel)

end ServiceCache.Templates

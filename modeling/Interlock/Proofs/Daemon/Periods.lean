import Interlock.Daemon.Running
import Interlock.Proofs.Schedule.Failed

/-!
The tasks of a daemon and the period its configuration gives them. A configuration that loads names
at least one space, and any period; so its tasks go on for good, or its period is zero and all that
have a period have failed. Specification, section 5: Concurrency & Resource Model.
-/
namespace Interlock

theorem Time.Duration.toNanos_eq_zero_iff {t : Time.Duration} : t.toNanos = 0 ↔ t = .zero := by
  obtain ⟨seconds, nanos⟩ := t
  simp only [toNanos, zero, mk.injEq]
  omega

namespace Daemon

open Disk (Pathname)
open Schedule (Crew Site)

variable {c : Config} {σ : Type} {site : Site σ}

namespace Config

theorem spaces_ne_nil_of_validate (checked : c.validate = .ok ()) : c.spaces ≠ [] := by
  intro none
  simp [validate, none] at checked

/-- A configuration that loads has been checked. -/
theorem validate_of_load {d : Disk} {path : Pathname} (loaded : load d path = .ok c) :
    c.validate = .ok () := by
  unfold load ofFile at loaded
  split at loaded
  · cases loaded
  · split at loaded
    · cases loaded
    · split at loaded
      · cases loaded
      · cases loaded
      · next read _ =>
        cases checked : read.validate with
        | error e =>
          rw [checked] at loaded
          cases loaded
        | ok u =>
          rw [checked] at loaded
          cases loaded
          exact checked

/-- However the crew of a configuration goes on, the tasks that have failed are those that should
have had a period and were given none. -/
theorem fails_iff {now : Nat} {crew : Crew site}
    (reaches : Crew.Reaches (.start c.coordinatorOf c.workers now) crew) (t : Crew.Task) :
    crew.Fails t ↔
      c.coordinator.evaluationPeriod = .zero ∧ Crew.Ticks c.coordinatorOf c.workers t := by
  rw [← Time.Duration.toNanos_eq_zero_iff]
  exact reaches.fails_iff t

end Config

namespace Running

/-- What becomes of a daemon with a configuration: it starts, serves connections, lets its loops do
what is due, and time passes. Everything may find the services in any state. -/
inductive Lives (c : Config) : Running → Prop
  | starts {paths : Paths} {number : Nat} {s s' : Services} {r : Running}
      (started : start c paths number s = (.ok r, s')) : Lives c r
  | serves {r : Running} (lives : Lives c r) (ending : Frame.Ending) (stream : Bytes)
      (s : Services) : Lives c (r.serve ending stream s).2.1
  | settles {r : Running} (lives : Lives c r) (s : Services) : Lives c (r.settle s).1
  | waits {r : Running} (lives : Lives c r) (now : Nat) : Lives c { r with now := now }

theorem start_reaches {paths : Paths} {number : Nat} {s s' : Services} {r : Running}
    (started : start c paths number s = (.ok r, s')) :
    Crew.Reaches (.start c.coordinatorOf c.workers 0) r.crew := by
  unfold start at started
  split at started
  · cases started
  · cases started
    exact Crew.reaches_settle _ _ _

theorem answer_reaches (r : Running) (request : Request) (s : Services) :
    r.crew.Reaches (r.answer request s).2.1.crew := by
  unfold answer
  simp only
  split
  · split
    · exact .single (.sent _ _)
    · exact .refl
  · exact .refl

theorem serve_reaches (r : Running) (ending : Frame.Ending) (stream : Bytes) (s : Services) :
    r.crew.Reaches (r.serve ending stream s).2.1.crew := by
  unfold serve
  simp only
  split
  · exact .refl
  · split
    · exact answer_reaches r _ s
    · exact answer_reaches r _ s

/-- The tasks of a daemon come from its start. -/
theorem Lives.reaches {r : Running} (lives : Lives c r) :
    Crew.Reaches (.start c.coordinatorOf c.workers 0) r.crew := by
  induction lives with
  | starts started => exact start_reaches started
  | serves _ ending stream s ih => exact ih.trans (serve_reaches _ ending stream s)
  | settles _ s ih => exact ih.trans (Crew.reaches_settle _ _ s)
  | waits _ now ih => exact ih

/-- A daemon goes on with all its tasks, or with none that should have a period. -/
theorem Lives.fails_iff {r : Running} (lives : Lives c r) (t : Crew.Task) :
    r.crew.Fails t ↔
      c.coordinator.evaluationPeriod = .zero ∧ Crew.Ticks c.coordinatorOf c.workers t :=
  Config.fails_iff lives.reaches t

end Running

namespace Config

/-- A configuration that loads gives its tasks a period, or they fail. However the crew of a daemon
goes on from its start: some task has failed exactly if the period is zero, and then the loops of
all spaces have, and the watcher if there is anybody to watch. -/
theorem tasks_fail_iff {d : Disk} {path : Pathname} (loaded : load d path = .ok c) {now : Nat}
    {crew : Crew site} (reaches : Crew.Reaches (.start c.coordinatorOf c.workers now) crew) :
    ((∃ t, crew.Fails t) ↔ c.coordinator.evaluationPeriod = .zero) ∧
      (c.coordinator.evaluationPeriod = .zero →
        (∀ s ∈ c.spaces, crew.Fails (.loop s)) ∧ (c.workers ≠ [] → crew.Fails .watcher)) := by
  have fails := fails_iff reaches
  obtain ⟨s, rest, spaces⟩ :=
    List.exists_cons_of_ne_nil (spaces_ne_nil_of_validate (validate_of_load loaded))
  have own : s ∈ c.spaces := spaces ▸ List.mem_cons_self
  refine ⟨⟨fun ⟨t, failed⟩ => ((fails t).1 failed).1, fun zero => ?_⟩, fun zero => ⟨?_, ?_⟩⟩
  · exact ⟨.loop s, (fails _).2 ⟨zero, own⟩⟩
  · exact fun s own => (fails (.loop s)).2 ⟨zero, own⟩
  · exact fun watched => (fails .watcher).2 ⟨zero, watched⟩

/-- A configuration file with a period of no time. -/
def unpaced : Disk where
  nodes := [(["fleetlock.toml"], .file (.ofText
    "shared_spaces = [\"s-1\"]
[coordinator]
evaluation_period = \"0s\"
[[fleet]]
name = \"yard\"
kind = \"simulated\"
"))]

def dense : Config where
  spaces := [⟨"s-1"⟩]
  coordinator := { evaluationPeriod := .zero }
  fleets := [⟨"yard", .simulated, none, none, [], []⟩]

/-- The file loads. The only loop of the daemon has failed, and still has when a signal wakes it. -/
theorem tasks_fail_iff_unpaced : ∃ crew : Crew Services.site,
    load unpaced ⟨"/fleetlock.toml"⟩ = .ok dense ∧
      Crew.Reaches (.start dense.coordinatorOf dense.workers 0) crew ∧
      (crew.loops.map Schedule.SpaceLoop.permit) = [true] ∧ crew.Fails (.loop ⟨"s-1"⟩) := by
  have loaded : load unpaced ⟨"/fleetlock.toml"⟩ = .ok dense := by decide +kernel
  have reaches : @Crew.Reaches _ Services.site (.start dense.coordinatorOf dense.workers 0) _ :=
    .head (.sent _ [.evaluate ⟨"s-1"⟩]) <| .head (.works 0 (y := { clock := default }) rfl) .refl
  have fails := (tasks_fail_iff loaded reaches).2 rfl
  exact ⟨_, loaded, reaches, by decide +kernel, fails.1 ⟨"s-1"⟩ List.mem_cons_self⟩

end Config

end Daemon

end Interlock

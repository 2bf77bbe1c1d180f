import FairLease.Proofs.Fleet.Survey
import FairLease.Simulation.Cluster

/-!
# The jobs of a node

A node of a simulation makes one call to the store after the other and takes up
the answers. Where neither is delayed, its jobs do what is said here of the
members of a fleet.
-/

namespace FairLease
namespace Fleet

open Simulation

/-- A job makes its next call to the in-memory store, if it has one, and takes
up the answer. -/
def work (n : Node) (now : Nat) (job : Job Watcher) (store : MemoryStore) :
    Job Watcher × MemoryStore :=
  match job.call? n with
  | none => (job, store)
  | some call =>
      match askStore memoryBackend call now store with
      | (some reply, store) => ((job.receive now reply n).1, store)
      | (none, store) => (job, store)

/-!
# Questions
-/

theorem work_listing (n : Node) (now : Nat) (l : Listing)
    (store : MemoryStore) :
    work n now (.listing l) store =
      (.listing (Listing.turnPage n.manager.settings now (l, store)).1,
        (Listing.turnPage n.manager.settings now (l, store)).2) := by
  cases l with
  | reading found after => rfl
  | finished result => rfl

section

variable {ι : Type}

theorem work_ownerJob (f : Fleet ι) {i : ι} {n : Node}
    (hn : n.manager = (f.members i).manager) (cidr : String) :
    work n f.now (World.ownerJob cidr) f.store =
      (.finished (.owner (f.ask i cidr).1), (f.ask i cidr).2) := by
  unfold World.ownerJob ask
  rw [← hn]
  cases ClaimKey.validate cidr with
  | error e => rfl
  | ok => rfl

end

/-!
# Admissions
-/

variable {ι : Type} [DecidableEq ι]

/-- A call of a fleet that needs the store goes on as the job of its member
does. -/
theorem next_eq_work {f : Fleet ι} {j : Nat} {c : Call ι}
    (hc : f.calls[j]? = some c) {n : Node}
    (hn : n.manager = (f.members c.member).manager)
    (hcall : (callOfAdmission? n c.admission : Option (StoreCall Watcher)) ≠
      none) :
    exists a, (work n f.now (.admission c.admission) f.store).1 = .admission a ∧
      f.next (.proceed j) =
        (f.setStore (work n f.now (.admission c.admission) f.store).2).setCall j
          a := by
  have hsettings : n.manager.settings = f.settings c := by
    rw [hn]
    rfl
  cases hphase : c.admission.phase with
  | listing l =>
      cases l with
      | reading found after =>
          rw [next_listed hc hphase]
          simp only [work, Job.call?, callOfAdmission?, hphase, ← hsettings]
          exact ⟨_, rfl, rfl⟩
      | finished result => simp [callOfAdmission?, hphase] at hcall
  | creating =>
      rw [next_created hc hphase]
      simp only [work, Job.call?, callOfAdmission?, hphase, ← hsettings]
      exact ⟨_, rfl, rfl⟩
  | registering => simp [callOfAdmission?, hphase] at hcall
  | finished result => simp [callOfAdmission?, hphase] at hcall

end Fleet
end FairLease

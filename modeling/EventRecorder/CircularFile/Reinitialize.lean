import EventRecorder.CircularFile.Refinement

/-!
# Initialising over an old data file

Initialising a circular file writes new metadata and leaves the data file alone.  Reads notice the
end of the ring by the end of the file, so they go wrong when the old data file is longer than the
maximum size, and only then.
-/

namespace EventRecorder

open Theory

/-- The client's data file is no longer than its maximum size. -/
def PhysicallyBounded (client : CircularFileClient) : Prop :=
  ∃ contents, client.file.disk.dataFile = some contents ∧ contents.length ≤ client.file.maxSize

/-- Opening over the given files succeeds, and the object answers every run as an empty queue of the
given capacity does, in a data file that stays within that capacity. -/
def BehavesAsEmpty (disk : CircularFileOnDisk) (maxSize : Nat) (reinitialized : Bool)
    (uninitialised : Nat → UInt8) : Prop :=
  ∃ client, openedOver disk maxSize reinitialized uninitialised = .ok client ∧
    ∀ ops, EachStep (fun client op => (client.call uninitialised op).1)
        CircularFileClient.Admissible client ops →
      outputs (CircularFileClient.call uninitialised) client ops =
          outputs (QueueClient.call maxSize) QueueClient.empty ops ∧
        Throughout (fun client op => (client.call uninitialised op).1) PhysicallyBounded client ops

theorem Refines.physicallyBounded {maxSize : Nat} {client : CircularFileClient} {spec : QueueClient}
    (h : Refines maxSize client spec) : PhysicallyBounded client := by
  obtain ⟨contents, hholds⟩ := h.holds
  exact ⟨contents, hholds.dataFile, hholds.stored.physical⟩

/-- **A file that is initialised afresh is a correct empty queue exactly when the data file it finds
is no longer than the maximum size.** -/
theorem behavesAsEmpty_iff (disk : CircularFileOnDisk) (maxSize : Nat) (hpos : 1 ≤ maxSize)
    (hmaxSize : maxSize < 2 ^ 64) (reinitialized : Bool) (hneeds : NeedsInit disk reinitialized)
    (uninitialised : Nat → UInt8) :
    BehavesAsEmpty disk maxSize reinitialized uninitialised ↔
      (disk.dataFile.getD []).length ≤ maxSize := by
  obtain ⟨keyFile, hkeyFile, hnew⟩ := new_of_needsInit hneeds hmaxSize uninitialised
  constructor
  · rintro ⟨client, hclient, hruns⟩
    rw [openedOver, hnew] at hclient
    obtain rfl := Except.ok.inj hclient
    -- an overlong file is not even bounded before the first call
    obtain ⟨contents, hdata, hle⟩ := (hruns [] (eachStep_nil _ _ _)).2.last
    obtain rfl := Option.some.inj hdata
    exact hle
  · intro hle
    refine ⟨_, by rw [openedOver, hnew], fun ops hops => ?_⟩
    obtain ⟨houtputs, hthroughout⟩ :=
      (refines_of_empty hpos hmaxSize hle hkeyFile).outputs_eq uninitialised hops
    have hbounded : ∀ client, (∃ spec, Refines maxSize client spec) → PhysicallyBounded client := by
      rintro client ⟨spec, h⟩
      exact h.physicallyBounded
    exact ⟨houtputs, hthroughout.mono hbounded⟩

theorem behavesAsEmpty_iff_junk_of_exact_length :
    BehavesAsEmpty ⟨some (List.replicate 24 7), .parsed KeyFile.empty⟩ 24 false (fun _ => 0) ↔
      ((List.replicate 24 (7 : UInt8))).length ≤ 24 :=
  behavesAsEmpty_iff ⟨some (List.replicate 24 7), .parsed KeyFile.empty⟩ 24 (by decide) (by decide)
    false (.inr (.inr ⟨KeyFile.empty, rfl, rfl⟩)) fun _ => 0

/-- A run in a file of 20 bytes whose third element goes round the end after two bytes of its
length. -/
def overlongRun : List CircularFileOp :=
  [.append [1], .save, .append [2], .save, .read 1, .remove 0, .append [3, 3], .save, .read 9]

/-- Over 30 bytes of junk the last read takes the rest of that length from the junk behind the end
and misses the element. -/
theorem behavesAsEmpty_overlong :
    ¬ BehavesAsEmpty ⟨some (List.replicate 30 7), .absent⟩ 20 true fun _ => 0 := by
  rintro ⟨client, hclient, hruns⟩
  obtain rfl := Except.ok.inj hclient
  have houtputs := (hruns overlongRun (by decide)).1
  revert houtputs
  decide

end EventRecorder

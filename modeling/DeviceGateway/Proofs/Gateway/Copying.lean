import DeviceGateway.Gateway.Files
import DeviceGateway.Proofs.FileSystem.Grafting

/-!
# Copies only add

Copying loses nothing, however it comes out, and leaves alone what exists at the target. If nothing was
found under the target and the copy is acknowledged, the same tree stands at both paths, unless one
is inside the other (`copy_only_adds`).

For a directory this asks for a target that does not lead up. On the way to the target directories are
made, and a path that leads up out of one of them leads, once it is there, to a directory that may have
been there all along: nothing was found under the path before, and now the copy goes into that
directory (`a_copy_goes_into_what_was_there`).
-/

namespace DeviceGateway.Files

variable {ι : Type} {w : Workspace ι} {pair : PathPair} {place : Place} {node : Node} {m : Int} {n : Nat}

/-! ## How a copy comes out -/

theorem run_copy_of_exists (hf : w.disk.find pair.source = .ok (place, node))
    (ht : w.disk.pathExists pair.target = true) :
    (copy pair).run w = (done s!"{pair.target} already exists", w) := by
  simp only [copy, look, Job.run_bind, Job.run_ask, hf, ht, if_true, Job.run_pure]

theorem run_copy_of_missing {e : FileFault} (hf : w.disk.find pair.source = .error e) :
    (copy pair).run w = (.error (e.toErrorAt pair.source), w) := by
  simp only [copy, look, Job.run_bind, Job.run_ask, hf, Job.run_pure]

theorem run_copy_of_absent (hf : w.disk.find pair.source = .ok (place, node))
    (ht : w.disk.pathExists pair.target = false) :
    (copy pair).run w = (copyNode pair node).run w := by
  simp only [copy, look, Job.run_bind, Job.run_ask, hf, ht, Bool.false_eq_true, if_false]

section

variable {d : Disk}

theorem run_copyNode_tree (h : w.disk.copyTree pair.source pair.target = (none, d)) :
    (copyNode pair (.directory m)).run w =
      (done s!"copied {pair.source} -> {pair.target}", { w with disk := d }) := by
  simp only [copyNode, Job.run_bind, Job.run_ask, Workspace.onDiskPartly, h, Job.run_pure]

theorem run_copyNode_tree_of_fault {e : GatewayError}
    (h : w.disk.copyTree pair.source pair.target = (some e, d)) :
    (copyNode pair (.directory m)).run w = (.error e, { w with disk := d }) := by
  simp only [copyNode, Job.run_bind, Job.run_ask, Workspace.onDiskPartly, h, Job.run_pure]

theorem run_copyNode_file (h : w.disk.copyFile pair.source pair.target = .ok d) :
    (copyNode pair (.file n)).run w =
      (done s!"copied {pair.source} -> {pair.target}", { w with disk := d }) := by
  simp only [copyNode, change, Job.run_bind, Job.run_ask, Workspace.onDisk, h, Except.map,
    Job.run_pure]

theorem run_copyNode_file_of_fault {e : FileFault}
    (h : w.disk.copyFile pair.source pair.target = .error e) :
    (copyNode pair (.file n)).run w = (.error e.toError, w) := by
  simp only [copyNode, change, Job.run_bind, Job.run_ask, Workspace.onDisk, h, Except.map,
    Job.run_pure]

end

/-! ## What a copy leaves -/

/-- **A copy loses nothing**, however far it comes. -/
theorem adds_copy (w : Workspace ι) (pair : PathPair) :
    w.disk.Adds ((copy pair).run w).2.disk := by
  cases hf : w.disk.find pair.source with
  | error e =>
      rw [run_copy_of_missing hf]
      exact .refl _
  | ok found =>
      obtain ⟨place, node⟩ := found
      cases ht : w.disk.pathExists pair.target with
      | true =>
          rw [run_copy_of_exists hf ht]
          exact .refl _
      | false =>
          rw [run_copy_of_absent hf ht]
          cases node with
          | directory m =>
              have hadds := Disk.adds_copyTree w.disk pair.source pair.target
              cases hc : w.disk.copyTree pair.source pair.target with
              | mk fault d =>
                  rw [hc] at hadds
                  cases fault with
                  | none =>
                      rw [run_copyNode_tree hc]
                      exact hadds
                  | some e =>
                      rw [run_copyNode_tree_of_fault hc]
                      exact hadds
          | file n =>
              cases hc : w.disk.copyFile pair.source pair.target with
              | ok d =>
                  rw [run_copyNode_file hc]
                  exact Disk.adds_copyFile ht hc
              | error e =>
                  rw [run_copyNode_file_of_fault hc]
                  exact .refl _

/-- **An acknowledged copy to where nothing was found** is one, if a directory goes to a path that does
not lead up. -/
theorem copied_of_copy (h : w.disk.Regular) (ht : w.disk.pathExists pair.target = false)
    {status : OperationStatus} (hdone : ((copy pair).run w).1 = .ok status)
    (hup : w.disk.isDirectory pair.source = true → ".." ∉ Path.segments pair.target) :
    ∃ src tgt, ((copy pair).run w).2.disk.Copied pair.source pair.target src tgt := by
  cases hf : w.disk.find pair.source with
  | error e =>
      rw [run_copy_of_missing hf] at hdone
      cases hdone
  | ok found =>
      obtain ⟨place, node⟩ := found
      rw [run_copy_of_absent hf ht] at hdone ⊢
      cases node with
      | directory m =>
          have hdirectory : w.disk.isDirectory pair.source = true := by
            rw [Disk.isDirectory, hf]
          cases hc : w.disk.copyTree pair.source pair.target with
          | mk fault d =>
              cases fault with
              | none =>
                  rw [run_copyNode_tree hc]
                  exact ⟨place, Disk.copied_of_copyTree h hf ht (hup hdirectory) hc⟩
              | some e =>
                  rw [run_copyNode_tree_of_fault hc] at hdone
                  cases hdone
      | file n =>
          cases hc : w.disk.copyFile pair.source pair.target with
          | ok d =>
              rw [run_copyNode_file hc]
              exact Disk.copied_of_copyFile h ht hc
          | error e =>
              rw [run_copyNode_file_of_fault hc] at hdone
              cases hdone

/-- **Copies only add.** Whatever stood anywhere stands there after a copy, and every file holds what it
held. If both paths exist, the copy is acknowledged and nothing changes. If nothing is found under the
target and the copy is acknowledged, the same tree stands at both paths, unless the target is inside
the source; a directory is to go to a path that does not lead up. -/
theorem copies_only_add (w : Workspace ι) (pair : PathPair) (h : w.disk.Regular) :
    (∀ q s, w.disk.shape? q = some s → ((copy pair).run w).2.disk.shape? q = some s) ∧
    (w.disk.pathExists pair.source = true → w.disk.pathExists pair.target = true →
      (copy pair).run w = (done s!"{pair.target} already exists", w)) ∧
    (w.disk.pathExists pair.target = false →
      ∀ status, ((copy pair).run w).1 = .ok status →
      (w.disk.isDirectory pair.source = true → ".." ∉ Path.segments pair.target) →
      ∃ src tgt, ((copy pair).run w).2.disk.Copied pair.source pair.target src tgt) := by
  refine ⟨fun q s => (adds_copy w pair).shape? h.tidy.made, fun hs ht => ?_, ?_⟩
  · obtain ⟨node, hf, -⟩ := Disk.node?_of_pathExists hs
    exact run_copy_of_exists hf ht
  · intro ht status hdone hup
    exact copied_of_copy h ht hdone hup

/-- A tree with a file below a directory of its own. -/
def orchard : Workspace Unit where
  disk :=
    { nodes := [(["work"], .directory 0), (["work", "a"], .directory 0), (["work", "a", "f"], .file 0),
        (["work", "a", "s"], .directory 0), (["work", "a", "s", "g"], .file 1)]
      bodies := [⟨[65], 0⟩, ⟨[66], 0⟩]
      here := ["work"]
      clock := 0 }
  installs := ()

theorem orchard_copied :
    (orchard.disk.copyTree "a" "b/c").1.isNone = true ∧
      (orchard.disk.copyTree "a" "b/c").2.shape? ["work", "b", "c", "s", "g"] = some (.file [66]) := by
  have hmade : orchard.disk.makeDirectories "b/c" =
      (none, (orchard.disk.put ["work", "b"] (.directory 0)).put ["work", "b", "c"] (.directory 0)) := by
    decide +kernel
  obtain ⟨hfault, hleft⟩ := Disk.copyTree_of_listed "a" ["work", "a"] 0 hmade (by decide +kernel)
    (Disk.listTree_of_sorted (by decide +kernel)) (by decide +kernel)
  rw [hfault, hleft]
  decide +kernel

/-- The tree is copied to a path above which something is missing. -/
theorem orchard_is_copied :
    orchard.disk.Regular ∧ orchard.disk.pathExists "b/c" = false ∧
    ((copy ⟨"a", "b/c"⟩).run orchard).1 = done "copied a -> b/c" ∧
    ((copy ⟨"a", "b/c"⟩).run orchard).2.disk.shape? ["work", "b", "c", "s", "g"] = some (.file [66]) ∧
    ∃ src tgt, ((copy ⟨"a", "b/c"⟩).run orchard).2.disk.Copied "a" "b/c" src tgt := by
  have hregular : orchard.disk.Regular := Disk.InOrder.regular (by decide +kernel)
  have hfree : orchard.disk.pathExists "b/c" = false := by decide +kernel
  have hf : orchard.disk.find "a" = .ok (["work", "a"], .directory 0) := by decide +kernel
  obtain ⟨hnone, hshape⟩ := orchard_copied
  have hrun : (copy ⟨"a", "b/c"⟩).run orchard =
      (done "copied a -> b/c", { orchard with disk := (orchard.disk.copyTree "a" "b/c").2 }) := by
    rw [run_copy_of_absent hf hfree]
    exact run_copyNode_tree (Prod.ext (Option.isNone_iff_eq_none.1 hnone) rfl)
  obtain ⟨-, -, hcopied⟩ := copies_only_add orchard ⟨"a", "b/c"⟩ hregular
  refine ⟨hregular, hfree, congrArg Prod.fst hrun, ?_, ?_⟩
  · rw [hrun]
    exact hshape
  · exact hcopied hfree _ (congrArg Prod.fst hrun) fun _ => by decide +kernel

/-- Two directories, and a file in each. -/
def neighbours : Workspace Unit where
  disk :=
    { nodes := [(["work"], .directory 0), (["work", "a"], .directory 0), (["work", "a", "f"], .file 0),
        (["work", "b"], .directory 0), (["work", "b", "g"], .file 1)]
      bodies := [⟨[65], 0⟩, ⟨[66], 0⟩]
      here := ["work"]
      clock := 0 }
  installs := ()

/-- What is left of them when one is copied to the other one by a path that leads out of a third, which
is missing. -/
theorem neighbours_merged :
    (neighbours.disk.copyTree "a" "n/../b").1.isNone = true ∧
      (neighbours.disk.copyTree "a" "n/../b").2.find "a" = .ok (["work", "a"], .directory 0) ∧
      (neighbours.disk.copyTree "a" "n/../b").2.find "n/../b" = .ok (["work", "b"], .directory 0) ∧
      (neighbours.disk.copyTree "a" "n/../b").2.shape? ["work", "b", "f"] = some (.file [65]) ∧
      (neighbours.disk.copyTree "a" "n/../b").2.shape? ["work", "b", "g"] = some (.file [66]) ∧
      (neighbours.disk.copyTree "a" "n/../b").2.shape? ["work", "a", "g"] = none := by
  have hmade : neighbours.disk.makeDirectories "n/../b" =
      (none, neighbours.disk.put ["work", "n"] (.directory 0)) := by decide +kernel
  obtain ⟨hfault, hleft⟩ := Disk.copyTree_of_listed "a" ["work", "a"] 0 hmade (by decide +kernel)
    (Disk.listTree_of_sorted (by decide +kernel)) (by decide +kernel)
  rw [hfault, hleft]
  decide +kernel

/-- **A copy goes into a directory that was there.** Nothing is found under the target, and the copy is
acknowledged. But the directory was there under another path, and what was copied is now beside what it
held. -/
theorem a_copy_goes_into_what_was_there :
    neighbours.disk.Regular ∧ neighbours.disk.isDirectory "b" = true ∧
    neighbours.disk.pathExists "n/../b" = false ∧
    ((copy ⟨"a", "n/../b"⟩).run neighbours).1 = done "copied a -> n/../b" ∧
    neighbours.disk.shape? ["work", "b", "f"] = none ∧
    ((copy ⟨"a", "n/../b"⟩).run neighbours).2.disk.shape? ["work", "b", "f"] = some (.file [65]) ∧
    ¬ ∃ src tgt, ((copy ⟨"a", "n/../b"⟩).run neighbours).2.disk.Copied "a" "n/../b" src tgt := by
  have hfree : neighbours.disk.pathExists "n/../b" = false := by decide +kernel
  have hf : neighbours.disk.find "a" = .ok (["work", "a"], .directory 0) := by decide +kernel
  obtain ⟨hnone, hfinda, hfindb, hbf, hbg, hag⟩ := neighbours_merged
  have hrun : (copy ⟨"a", "n/../b"⟩).run neighbours =
      (done "copied a -> n/../b",
        { neighbours with disk := (neighbours.disk.copyTree "a" "n/../b").2 }) := by
    rw [run_copy_of_absent hf hfree]
    exact run_copyNode_tree (Prod.ext (Option.isNone_iff_eq_none.1 hnone) rfl)
  rw [hrun]
  refine ⟨Disk.InOrder.regular (by decide +kernel), by decide +kernel, hfree, rfl,
    by decide +kernel, hbf, ?_⟩
  rintro ⟨src, tgt, ⟨node, hsource⟩, ⟨node', htarget⟩, hsame⟩
  cases hfinda.symm.trans hsource
  cases hfindb.symm.trans htarget
  -- A file that was in the one directory is not in the other.
  have hg := hsame (by decide) ["g"]
  cases hbg.symm.trans (hg.trans hag)

end DeviceGateway.Files

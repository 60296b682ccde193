import FunnyOS.Lib.EndsWhen
import FunnyOS.Memory.ActiveRoot
import FunnyOS.Programs.Process

/-!
# The root on which the loader runs

`process_load_binary` and `process_run_foreground` activate the root of the process and put back the
root that was active. Nothing else that they call changes it, or `g_active_process`.
-/

namespace FunnyOS.Programs

open Prog
open Memory (pagingCurrentRoot)

/-- Whether a process is active, and the root that is, where `root` is not 0. -/
structure OnRoot (active : Bool) (root : Nat) (s : ForegroundState) : Prop where
  active : s.active = active
  root : root ≠ 0 → pagingCurrentRoot s.kernel = root

variable {s : ForegroundState} {active : Bool} {root : Nat} {α : Type} {text : String}

theorem OnRoot.same {s' : ForegroundState} (h : OnRoot active root s) (hactive : s'.active = s.active)
    (hroot : pagingCurrentRoot s'.kernel = pagingCurrentRoot s.kernel) : OnRoot active root s' :=
  ⟨hactive.trans h.active, fun hne => hroot.trans (h.root hne)⟩

theorem loading_onRoot {x : Loader α} : Maintains (OnRoot active root) (loading x) :=
  .onPart fun _ _ hs => hs.same rfl rfl

theorem staging_onRoot {x : ArgStep α} : Maintains (OnRoot active root) (staging x) :=
  .onPart fun _ _ hs => hs.same rfl rfl

theorem allocPages_onRoot {n : Nat} : Maintains (OnRoot active root) (allocPages n) :=
  fun _ hs => hs.same rfl (Memory.pagingCurrentRoot_congr Memory.Kernel.allocPages_cr3)

theorem pagingCreateAddressSpace_onRoot :
    Maintains (OnRoot active root) pagingCreateAddressSpace :=
  fun _ hs => hs.same rfl (Memory.pagingCurrentRoot_congr Memory.pagingCreateAddressSpace_cr3)

theorem pagingMapUserRange_onRoot {virtStart physStart size : Nat} {writable executable : Bool} :
    Maintains (OnRoot active root)
      (pagingMapUserRange virtStart physStart size writable executable) :=
  fun _ hs => hs.same rfl Memory.pagingMapUserRange_current

/-! ## What a process gives back -/

theorem freeBacking_onRoot {backing : ProcessPages → Nat} {clear : ProcessPages → ProcessPages}
    {pageCount : ProcessAddressSpace → Nat} (h : OnRoot active root s) :
    OnRoot active root (freeBacking backing clear pageCount s) := by
  unfold freeBacking
  split
  · exact h.same rfl rfl
  · exact h

theorem destroyRoot_onRoot (h : OnRoot active root s) : OnRoot active root (destroyRoot s) := by
  unfold destroyRoot
  split
  · exact h.same rfl (Memory.pagingCurrentRoot_congr Memory.pagingDestroyAddressSpace_cr3)
  · exact h

theorem processReleaseAddressSpace_onRoot (h : OnRoot active root s) :
    OnRoot active root (processReleaseAddressSpace s) :=
  (destroyRoot_onRoot (freeBacking_onRoot (freeBacking_onRoot (freeBacking_onRoot h)))).same rfl rfl

/-! ## The loader -/

theorem allocBacking_onRoot {set : Nat → ProcessPages → ProcessPages}
    {pageCount : ProcessAddressSpace → Nat} :
    Maintains (OnRoot active root) (allocBacking set pageCount text) :=
  Maintains.get.bind fun _ => allocPages_onRoot.bind fun _ =>
    (Maintains.modify fun _ hs => hs.same rfl rfl).bind fun _ =>
      .ite (fun _ => loading_onRoot) fun _ => .pure

theorem mapBacking_onRoot {base size : ProcessAddressSpace → Nat} {backing : ProcessPages → Nat}
    {executable : Bool} :
    Maintains (OnRoot active root) (mapBacking base size backing executable text) :=
  Maintains.get.bind fun _ => pagingMapUserRange_onRoot.bind fun _ =>
    .ite (fun _ => loading_onRoot) fun _ => .pure

theorem processPrepareAddressSpace_onRoot :
    Maintains (OnRoot active root) processPrepareAddressSpace := by
  have hfail : Maintains (OnRoot active root) failPrepare :=
    (Maintains.modify fun _ hs =>
      destroyRoot_onRoot (freeBacking_onRoot (freeBacking_onRoot hs))).bind fun _ => .raise
  refine pagingCreateAddressSpace_onRoot.bind fun newRoot => Maintains.bind ?_ fun _ => ?_
  · exact .modify fun _ hs => hs.same rfl rfl
  refine .ite (fun _ => loading_onRoot) fun _ => Maintains.orElse ?_ fun _ => hfail
  exact allocBacking_onRoot.bind fun _ => allocBacking_onRoot.bind fun _ =>
    mapBacking_onRoot.bind fun _ => mapBacking_onRoot

/-! ## The roots -/

/-- The root that was active in the kernel `before` is activated again. -/
theorem pagingActivateRoot_restored {before : Memory.Kernel} {newRoot : Nat} (h : s.active = active)
    (hroot : pagingCurrentRoot before ≠ 0 → newRoot = pagingCurrentRoot before) :
    OnRoot active (pagingCurrentRoot before) { s with
      kernel := Memory.pagingActivateRoot s.kernel newRoot } := by
  refine ⟨h, fun hne => ?_⟩
  rw [hroot hne]
  exact Memory.pagingActivateRoot_current Memory.alignDownPage_pagingCurrentRoot hne

end FunnyOS.Programs

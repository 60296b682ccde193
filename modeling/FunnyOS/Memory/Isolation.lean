import FunnyOS.Memory.Hosting

/-!
# What user code and the kernel see of each other

Under a root that `paging_create_address_space` has just made user code comes nowhere, since no
entry of the kernel's root lets it through. Under the kernel's root every address leads where it did,
whatever is mapped under the root of a process.
-/

namespace FunnyOS.Memory

variable {s : Kernel} {root virt : Nat} {held : List FreePageRange} {x : Translation}

/-- User code comes nowhere under a new root. -/
theorem pagingCreateAddressSpace_sealed (h : Idle s held) (hne : (pagingCreateAddressSpace s).1 ≠ 0)
    (hx : translate (pagingCreateAddressSpace s).2.tables (pagingCreateAddressSpace s).1 virt =
      some x) : x.user = false := by
  obtain ⟨owned, rank, hok, -⟩ := h.tables
  rcases pagingCreateAddressSpace_cases (hok.kernelOk h.closed) Eq fun _ => rfl with
    hnone | ⟨root, s', hpml4, -, hsome, hcreated⟩
  · rw [hnone] at hne
    exact absurd rfl hne
  · rw [hsome] at hx
    by_contra huser
    obtain ⟨hpresent, hopen⟩ := translate_user hx (by simpa using huser)
    rw [hcreated.shared] at hpresent hopen
    exact absurd (hopen.symm.trans (h.closed hpml4 _ hpresent)) (by decide)

/-- What is done to the kernel while there is a process: blocks are handed out, and ranges are mapped
under the root of the process. -/
inductive HostedCall
  | alloc (pageCount : Nat)
  | mapUser (call : UserMap)

/-- One of these calls, under `root`. -/
def Kernel.hosted (root : Nat) (s : Kernel) : HostedCall → Kernel
  | .alloc pageCount => (s.allocPages pageCount).2
  | .mapUser call => (pagingMapUserRange s root call.virtStart call.physStart call.size
      call.writable call.executable).2

namespace Hosting

/-- `paging_map_user_range` under the root of a process changes no translation of the kernel's. -/
theorem mapUserRange_kernel (h : Hosting s root held) (virtStart physStart size : Nat)
    (writable executable : Bool) :
    (pagingMapUserRange s root virtStart physStart size writable executable).2.pml4 = s.pml4 ∧
    translate (pagingMapUserRange s root virtStart physStart size writable executable).2.tables
      s.pml4 virt = translate s.tables s.pml4 virt := by
  obtain ⟨owned, rank, hok, hspace⟩ := h.apart
  obtain ⟨hne, -⟩ := pml4_mem hok hspace
  obtain ⟨news, hgrown⟩ := hspace.mapUserRange virtStart physStart size writable executable
  refine ⟨hgrown.untouched.pml4, hok.translate_eq (hok.root hne) fun t ht => ?_⟩
  exact hgrown.untouched.tables t (List.mem_append_left _ (List.mem_map_of_mem ht))

theorem alloc (h : Hosting s root held) (n : Nat) : Hosting (s.allocPages n).2 root
    (if (s.allocPages n).1 = 0 then held else ⟨(s.allocPages n).1, n⟩ :: held) := by
  obtain ⟨hpages, hbase, htables, hpml4⟩ := Kernel.allocPages_pages (s := s) n
  refine h.of_same _ (fun others hinv => ?_) hpml4 fun t _ => by rw [htables]
  rw [hpages, hbase]
  exact (CallStep.alloc s.pages held n).invariant_append hinv

/-- One call. -/
theorem hosted (h : Hosting s root held) (virt : Nat) (call : HostedCall) :
    (∃ held', Hosting (s.hosted root call) root held') ∧ (s.hosted root call).pml4 = s.pml4 ∧
      translate (s.hosted root call).tables s.pml4 virt = translate s.tables s.pml4 virt := by
  cases call with
  | alloc n =>
      obtain ⟨-, -, htables, hpml4⟩ := Kernel.allocPages_pages (s := s) n
      exact ⟨⟨_, h.alloc n⟩, hpml4, by rw [Kernel.hosted, htables]⟩
  | mapUser call =>
      exact ⟨⟨held, h.mapUserRange _ _ _ _ _⟩, h.mapUserRange_kernel _ _ _ _ _⟩

/-- Any of these calls, in any order. -/
theorem hosted_kernel (h : Hosting s root held) (virt : Nat) (calls : List HostedCall) :
    translate (calls.foldl (Kernel.hosted root) s).tables s.pml4 virt =
      translate s.tables s.pml4 virt := by
  induction calls generalizing s held with
  | nil => rfl
  | cons call calls ih =>
      obtain ⟨⟨held', hafter⟩, hpml4, hsame⟩ := h.hosted virt call
      rw [List.foldl_cons, ← hsame, ← hpml4]
      exact ih hafter

end Hosting

/-- The same, from the call on that makes the root. -/
theorem pagingCreateAddressSpace_kernel (h : Idle s held)
    (hne : (pagingCreateAddressSpace s).1 ≠ 0) (calls : List HostedCall) :
    translate (calls.foldl (Kernel.hosted (pagingCreateAddressSpace s).1)
      (pagingCreateAddressSpace s).2).tables s.pml4 virt = translate s.tables s.pml4 virt := by
  obtain ⟨owned, rank, hok, -⟩ := h.tables
  rcases pagingCreateAddressSpace_cases (hok.kernelOk h.closed) Eq fun _ => rfl with
    hnone | ⟨root, s', hpml4, -, hsome, hcreated⟩
  · rw [hnone] at hne
    exact absurd rfl hne
  rcases pagingCreateAddressSpace_hosting h with hnone | ⟨_, _, -, hsome', hhosting⟩
  · rw [hnone] at hne
    exact absurd rfl hne
  rw [hsome] at hsome' ⊢
  obtain ⟨rfl, rfl⟩ := Prod.mk.inj hsome'
  have hcalls := hhosting.hosted_kernel virt calls
  rw [hcreated.untouched.pml4] at hcalls
  refine hcalls.trans (hok.translate_eq (hok.root hpml4) fun t ht => ?_)
  exact hcreated.untouched.tables t (List.mem_append_left _ (List.mem_map_of_mem ht))

end FunnyOS.Memory

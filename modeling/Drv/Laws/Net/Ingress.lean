import Drv.Base.Effect
import Drv.Laws.Net.DnsWire
import Drv.Net.Ingress

/-!
# The resolver answers what was asked

An owner has one first CNAME, so a chain that ends has one length from each
of its names on, and a name that is met again is in no such chain.

The addresses answered are those of the owner that fewer than 16 CNAMEs
lead to, at most 64, and none without such an owner (`addresses_exact`).
That the records are authentic is not shown.
-/

namespace Drv.Net.Ingress

variable {N : Type} [DecidableEq N] (answers : List (Record N))

/-- So many CNAMEs lead from a name to another. -/
inductive Leads : Nat → N → N → Prop
  | refl (name : N) : Leads 0 name name
  | link {n name target owner} (hcname : cname answers name = some target)
      (h : Leads n target owner) : Leads (n + 1) name owner

/-- The chain of a name ends at an owner. -/
structure Ends (n : Nat) (name owner : N) : Prop where
  leads : Leads answers n name owner
  last : cname answers owner = none

variable {answers} {kind : RecordType} {m n rounds : Nat} {name a owner : N} {visited : List N}

theorem Leads.rest (h : Leads answers m name a) (hends : Ends answers n name owner) :
    ∃ k, n = m + k ∧ Ends answers k a owner := by
  induction h generalizing n with
  | refl => exact ⟨n, (Nat.zero_add n).symm, hends⟩
  | link hcname _ ih =>
    obtain ⟨hleads, hlast⟩ := hends
    cases hleads with
    | refl =>
      rw [hlast] at hcname
      cases hcname
    | link hcname' hleads =>
      cases hcname.symm.trans hcname'
      obtain ⟨k, rfl, hends⟩ := ih ⟨hleads, hlast⟩
      exact ⟨k, by omega, hends⟩

theorem Ends.length_unique (h : Ends answers m name owner) (h' : Ends answers n name a) :
    m = n := by
  obtain ⟨k, hk, -⟩ := h.leads.rest h'
  obtain ⟨k', hk', -⟩ := h'.leads.rest h
  omega

theorem follow_of_not_ends (h : ∀ n owner, n < rounds → ¬ Ends answers n name owner) :
    follow answers kind rounds name visited = [] := by
  induction rounds generalizing name visited with
  | zero => rfl
  | succ rounds ih =>
    rw [follow]
    split
    · rfl
    split
    next target htarget =>
      refine ih fun n owner hn hends => h (n + 1) owner (by omega) ?_
      exact ⟨.link htarget hends.leads, hends.last⟩
    next hnone => exact absurd ⟨.refl name, hnone⟩ (h 0 name (by omega))

/-- A chain that ends in time is followed to its end: what was visited is
farther from the end, so that no name is met again. -/
theorem Ends.follow_eq (hends : Ends answers n name owner) (hn : n < rounds)
    (hvisited : ∀ v ∈ visited, ∃ m, n < m ∧ Ends answers m v owner) :
    follow answers kind rounds name visited =
      (owned answers kind owner).take DnsWire.maxAddresses := by
  induction rounds generalizing n name visited with
  | zero => cases hn
  | succ rounds ih =>
    have hnew : name ∉ visited := by
      intro hmem
      obtain ⟨m, hm, hends'⟩ := hvisited name hmem
      have := hends.length_unique hends'
      omega
    rw [follow, if_neg hnew]
    obtain ⟨hleads, hlast⟩ := hends
    cases hleads with
    | refl => rw [hlast]
    | link hcname hleads =>
      rw [hcname]
      refine ih ⟨hleads, hlast⟩ (by omega) (forall_mem_concat (fun v hv => ?_) ?_)
      · obtain ⟨m, hm, hends⟩ := hvisited v hv
        exact ⟨m, by omega, hends⟩
      · exact ⟨_, by omega, .link hcname hleads, hlast⟩

/-- The addresses of a name are the first 64 that the end of its CNAME chain
has, in order. There are none if the chain meets a name again or has 16
links, and never one of another owner. -/
theorem addresses_exact (answers : List (Record N)) (kind : RecordType) (name : N) :
    (∀ n owner, n < 16 → Ends answers n name owner →
      addresses answers kind name = (owned answers kind owner).take 64) ∧
    (∀ i j a, i < j → Leads answers i name a → Leads answers j name a →
      addresses answers kind name = []) ∧
    (∀ owner, Leads answers 16 name owner → addresses answers kind name = []) ∧
    ∀ ip ∈ addresses answers kind name, ∃ n owner, n < 16 ∧ Ends answers n name owner ∧
      ip ∈ owned answers kind owner := by
  have hexact : ∀ n owner, n < 16 → Ends answers n name owner →
      addresses answers kind name = (owned answers kind owner).take 64 :=
    fun n owner hn hends => hends.follow_eq hn fun _ h => nomatch h
  refine ⟨hexact, fun i j a hij hi hj => ?_, fun owner hleads => ?_, fun ip hip => ?_⟩
  · refine follow_of_not_ends fun n owner hn hends => ?_
    obtain ⟨k, rfl, hends'⟩ := hi.rest hends
    obtain ⟨k', hk, hends''⟩ := hj.rest hends
    have := hends'.length_unique hends''
    omega
  · refine follow_of_not_ends fun n owner' hn hends => ?_
    obtain ⟨k, rfl, -⟩ := hleads.rest hends
    omega
  · by_contra hnone
    have hnil : addresses answers kind name = [] := by
      refine follow_of_not_ends fun n owner hn hends => hnone ⟨n, owner, hn, hends, ?_⟩
      rw [hexact n owner hn hends] at hip
      exact List.mem_of_mem_take hip
    rw [hnil] at hip
    cases hip

open DnsWire (ok temporary notFound unavailable)

/-- A client of the resolver reads the addresses of both families, as far as
there is room for them. Without any it reads whether a family failed. -/
theorem nssClient_read (name : N) (a aaaa : Response N) :
    let found (kind : RecordType) (r : Response N) :=
      if r.code = .noError then addresses r.answers kind name else []
    let ips := (found .a a ++ found .aaaa aaaa).take 64
    ∃ b, nssClient name a aaaa = .ok b ∧ DnsWire.addresses b = .ok (some (
      if ips ≠ [] then .ok ips
      else .error (if a.code = .other ∨ aaaa.code = .other then temporary else notFound))) := by
  intro found ips
  set failure := if a.code = .other ∨ aaaa.code = .other then temporary else notFound
    with hfailure
  have hclient : nssClient name a aaaa =
      DnsWire.response (if ips ≠ [] then ok else failure) ips := by
    obtain ⟨_ | _ | _, _⟩ := a <;> obtain ⟨_ | _ | _, _⟩ := aaaa <;>
      simp [nssClient, ips, found, hfailure, DnsWire.maxAddresses]
  obtain ⟨b, hb, hlist⟩ := DnsWire.response_layout (if ips ≠ [] then ok else failure) ips
  refine ⟨b, hclient.trans hb, (DnsWire.addresses_reads b).eq_some.mpr ?_⟩
  by_cases hnil : ips = []
  · have hne : failure ≠ ok ∧ failure ≤ unavailable := by
      rw [hfailure]
      split <;> decide
    rw [if_neg (not_not.mpr hnil)] at hlist ⊢
    rw [if_neg hne.1] at hlist
    exact ⟨hne.1, hne.2, hlist⟩
  · have hlength : ips.length ≤ 64 := List.length_take_le ..
    rw [if_pos hnil] at hlist ⊢
    rw [if_pos rfl, Nat.min_eq_left hlength, List.take_of_length_le hlength] at hlist
    exact ⟨hlength, hlist⟩

end Drv.Net.Ingress

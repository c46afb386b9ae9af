import SyscallVector.Lib.LinkedList

/-!
# Several lists in one heap

A forest is a collection of list heads whose lists share no cell. It survives
allocation, takes in a list on cells that were free, and loses one list without
harm to the others when that list is freed. It spans the heap when no cell outside its
lists is allocated.
-/
namespace SyscallVector.Lib

set_option autoImplicit false

universe u v
variable {A : Type u} {N : Type v}

/-- Every head starts a list, and the lists of two heads have no cell in common. -/
structure Forest (next : N → A) (null : A) (heap : A → Option N) (heads : List A) : Prop where
  segs : ∀ p ∈ heads, ∃ ps, Seg next null heap p ps
  apart : heads.Pairwise fun p q => ∀ ps qs, Seg next null heap p ps → Seg next null heap q qs →
    ∀ a ∈ ps, a ∉ qs

variable {next : N → A} {null : A} {heap heap' : A → Option N} {heads heads' : List A}
  {p q : A} {ps qs : List A}

theorem Forest.perm (h : Forest next null heap heads) (hp : heads.Perm heads') :
    Forest next null heap heads' := by
  refine ⟨fun p hmem => h.segs p (hp.mem_iff.mpr hmem), h.apart.perm hp ?_⟩
  intro p q hpq qs ps hq hps a ha hmem
  exact hpq ps qs hps hq a hmem ha

/-- A head that is not NULL is allocated. -/
theorem Forest.allocated (h : Forest next null heap heads) (hp : p ∈ heads) (h0 : p ≠ null) :
    heap p ≠ none := by
  obtain ⟨ps, hps⟩ := h.segs p hp
  obtain ⟨n, hn⟩ := hps.allocated p (hps.head_mem h0)
  rw [hn]
  exact Option.some_ne_none n

/-- Two heads that are not NULL differ. -/
theorem Forest.distinct (h : Forest next null heap heads) :
    heads.Pairwise fun p q => p ≠ null → p ≠ q := by
  refine h.apart.imp_of_mem fun {p q} hp hq hpq h0 he => ?_
  obtain ⟨ps, hps⟩ := h.segs p hp
  exact hpq ps ps hps (he ▸ hps) p (hps.head_mem h0) (hps.head_mem h0)

/-- A list that starts at a head of a forest is the same in every heap that extends it. -/
theorem Forest.seg_of_extends (h : Forest next null heap heads) (he : Extends heap heap')
    (hp : p ∈ heads) (hps : Seg next null heap' p ps) : Seg next null heap p ps := by
  obtain ⟨qs, hqs⟩ := h.segs p hp
  rwa [← (hqs.extends he).unique hps]

theorem Forest.extends (h : Forest next null heap heads) (he : Extends heap heap') :
    Forest next null heap' heads := by
  constructor
  · intro p hp
    obtain ⟨ps, hps⟩ := h.segs p hp
    exact ⟨ps, hps.extends he⟩
  · refine h.apart.imp_of_mem fun hp hq hpq ps qs hps hqs => ?_
    exact hpq ps qs (h.seg_of_extends he hp hps) (h.seg_of_extends he hq hqs)

/-- A list on cells that were free joins the forest. -/
theorem Forest.plant (h : Forest next null heap heads) (he : Extends heap heap')
    (hps : Seg next null heap' p ps) (hfree : ∀ a ∈ ps, heap a = none) :
    Forest next null heap' (p :: heads) := by
  have hext := h.extends he
  constructor
  · intro q hq
    rcases List.mem_cons.mp hq with rfl | hq
    · exact ⟨ps, hps⟩
    · exact hext.segs q hq
  · refine List.pairwise_cons.mpr ⟨fun q hq ps' qs hps' hqs a ha hmem => ?_, hext.apart⟩
    obtain rfl := hps.unique hps'
    obtain ⟨rs, hrs⟩ := h.segs q hq
    obtain rfl := (hrs.extends he).unique hqs
    obtain ⟨n, hn⟩ := hrs.allocated a hmem
    rw [hfree a ha] at hn
    cases hn

/-- Freeing one list leaves the others as they are. -/
theorem Forest.fell (h : Forest next null heap (p :: heads)) (hps : Seg next null heap p ps)
    (hkeep : ∀ a, a ∉ ps → heap' a = heap a) : Forest next null heap' heads := by
  obtain ⟨hfirst, hrest⟩ := List.pairwise_cons.mp h.apart
  have hkept {q : A} (hq : q ∈ heads) {qs : List A} (hqs : Seg next null heap q qs) :
      Seg next null heap' q qs :=
    hqs.frame fun a ha => hkeep a fun hmem => hfirst q hq ps qs hps hqs a hmem ha
  have hsame {q : A} (hq : q ∈ heads) {qs : List A} (hqs : Seg next null heap' q qs) :
      Seg next null heap q qs := by
    obtain ⟨rs, hrs⟩ := h.segs q (List.mem_cons_of_mem p hq)
    rwa [← (hkept hq hrs).unique hqs]
  constructor
  · intro q hq
    obtain ⟨qs, hqs⟩ := h.segs q (List.mem_cons_of_mem p hq)
    exact ⟨qs, hkept hq hqs⟩
  · exact hrest.imp_of_mem fun hp hq hpq ps qs hps hqs => hpq ps qs (hsame hp hps) (hsame hq hqs)

/-! ## No cell is lost -/

/-- Every allocated cell is in the list of one of the heads. -/
def Spans (next : N → A) (null : A) (heap : A → Option N) (heads : List A) : Prop :=
  ∀ a, heap a ≠ none → ∃ p ∈ heads, ∃ ps, Seg next null heap p ps ∧ a ∈ ps

theorem spans_nil_iff : Spans next null heap [] ↔ heap = fun _ => none := by
  constructor
  · intro h
    funext a
    by_contra ha
    obtain ⟨p, hp, -⟩ := h a ha
    cases hp
  · rintro rfl a ha
    exact absurd rfl ha

theorem Spans.perm (h : Spans next null heap heads) (hp : heads.Perm heads') :
    Spans next null heap heads' := by
  intro a ha
  obtain ⟨p, hmem, hps⟩ := h a ha
  exact ⟨p, hp.mem_iff.mp hmem, hps⟩

theorem Spans.plant (h : Spans next null heap heads) (he : Extends heap heap')
    (hps : Seg next null heap' p ps) (hkeep : ∀ a, a ∉ ps → heap' a = heap a) :
    Spans next null heap' (p :: heads) := by
  intro a ha
  by_cases hmem : a ∈ ps
  · exact ⟨p, List.mem_cons_self, ps, hps, hmem⟩
  · rw [hkeep a hmem] at ha
    obtain ⟨q, hq, qs, hqs, haqs⟩ := h a ha
    exact ⟨q, List.mem_cons_of_mem p hq, qs, hqs.extends he, haqs⟩

theorem Spans.fell (h : Spans next null heap (p :: heads))
    (hforest : Forest next null heap (p :: heads)) (hps : Seg next null heap p ps)
    (hkeep : ∀ a, a ∉ ps → heap' a = heap a) (hfreed : ∀ a ∈ ps, heap' a = none) :
    Spans next null heap' heads := by
  intro a ha
  have hout : a ∉ ps := fun hmem => ha (hfreed a hmem)
  rw [hkeep a hout] at ha
  obtain ⟨q, hq, qs, hqs, haqs⟩ := h a ha
  rcases List.mem_cons.mp hq with rfl | hq
  · exact absurd (hps.unique hqs ▸ haqs) hout
  · have hfirst := (List.pairwise_cons.mp hforest.apart).1
    refine ⟨q, hq, qs, hqs.frame fun b hb => hkeep b fun hmem => ?_, haqs⟩
    exact hfirst q hq ps qs hps hqs b hmem hb

end SyscallVector.Lib

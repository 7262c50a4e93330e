import Mathlib.Data.Nat.Log
import NaptRouter.NaptRefinement

/-!
# How often the tables forget

A NAPT table forgets when it grows, and it grows when half of its slots are taken. It gets more
than twice the slots then, and no slots are taken but those that growth fills, of which there are
no more than were taken before. So the intervals between two losses double: `losses_bounded`.
-/

namespace NaptRouter

open ByteMemory Hashmap Runs

variable {cfg : Config} {h h' : Hashmap}

/-! ## One insertion -/

/-- What an insertion does to the size of a table. -/
structure Enlarges (h h' : Hashmap) : Prop where
  sizeAllocated : h'.sizeAllocated = if h.Full then h.sizeAllocated * 2 + 1 else h.sizeAllocated
  size_le : h'.size ≤ h.size + 1

theorem insertLoop_enlarges {key value : Src} {fuel index : Nat}
    (h₁ : insertLoop h key value fuel index = some h') :
    h'.sizeAllocated = h.sizeAllocated ∧ h'.size = h.size + 1 := by
  obtain ⟨p, rfl⟩ := insertLoop_eq_fillSlot h₁
  exact ⟨rfl, rfl⟩

theorem hashmapInsert_enlarges (hS : h.Sound) {k v : List UInt8}
    (hins : hashmapInsert h k v = some h') : Enlarges h h' := by
  rw [hashmapInsert] at hins
  by_cases hfull : h.Full
  · obtain ⟨hg, hgrow, hR, hsize⟩ := hashmapGrow_spec h 0
    rw [hashmapInsertDepth_of_full hfull hgrow] at hins
    obtain ⟨hn, hsize'⟩ := insertLoop_enlarges hins
    have hle : h.takenBefore (h.sizeAllocated / 4 * 4) ≤ h.size := by
      rw [hS.toWF.size_eq_takenBefore]
      exact takenBefore_mono h (Nat.div_mul_le_self _ 4)
    refine ⟨?_, by omega⟩
    rw [hn, hR.sizeAllocated, if_pos hfull]
  · rw [hashmapInsertDepth_of_not_full hfull] at hins
    obtain ⟨hn, hsize⟩ := insertLoop_enlarges hins
    exact ⟨by rw [hn, if_neg hfull], hsize.le⟩

theorem Enlarges.of_setLock {b b' : Bool} (hE : Enlarges (h.setLock b) h') :
    Enlarges h (h'.setLock b') :=
  ⟨hE.sizeAllocated, hE.size_le⟩

/-! ## Many insertions -/

/-- A table after a number of insertions, at some of which it grew. -/
structure Doubled (h : Hashmap) (insertions growths : Nat) : Prop where
  capacity : h.sizeAllocated + 1 = 12 * 2 ^ growths
  size_le : h.size ≤ insertions
  few : growths = 0 ∨ 3 * 2 ^ growths ≤ insertions

theorem doubled_init (hashFunc : List UInt8 → Nat) (sizeKey sizeValue : Nat) :
    Doubled (hashmapInit hashFunc sizeKey sizeValue) 0 0 :=
  ⟨rfl, le_rfl, Or.inl rfl⟩

/-- **An insertion.** At growth, half of the slots had been taken by insertions. -/
theorem Doubled.insert {insertions growths : Nat} (hD : Doubled h insertions growths)
    (hE : Enlarges h h') :
    Doubled h' (insertions + 1) (growths + if h.Full then 1 else 0) := by
  obtain ⟨hcapacity, hsize, hfew⟩ := hD
  obtain ⟨hn, hsize'⟩ := hE
  by_cases hfull : h.Full
  · have hhalf : h.sizeAllocated / 2 ≤ h.size := hfull
    rw [if_pos hfull] at hn ⊢
    have hpow : 2 ^ (growths + 1) = 2 * 2 ^ growths := Nat.pow_succ'
    exact ⟨by omega, by omega, Or.inr (by omega)⟩
  · rw [if_neg hfull] at hn ⊢
    exact ⟨by rw [hn, hcapacity, Nat.add_zero], by omega, hfew.imp id Nat.le_succ_of_le⟩

theorem Doubled.setLock {insertions growths : Nat} (hD : Doubled h insertions growths)
    (b : Bool) : Doubled (h.setLock b) insertions growths :=
  ⟨hD.capacity, hD.size_le, hD.few⟩

theorem Doubled.le_log {insertions growths : Nat} (hD : Doubled h insertions growths) :
    growths ≤ Nat.log 2 (insertions / 3) := by
  rcases hD.few with rfl | hfew
  · exact Nat.zero_le _
  · apply Nat.le_log_of_pow_le Nat.one_lt_two
    rwa [Nat.le_div_iff_mul_le (Nat.zero_lt_succ 2), Nat.mul_comm]

/-! ## Runs -/

/-- How many mappings have been made. -/
def mappings (tr : List (Ipv4Step cfg)) : Nat :=
  tr.countP fun t => decide (MakesMapping cfg t.pre t.input)

/-- How often the extern table has forgotten what it held. -/
def inboundLosses (tr : List (Ipv4Step cfg)) : Nat :=
  tr.countP fun t => decide (MakesMapping cfg t.pre t.input) && t.pre.napt.losses.inbound

/-- How often the intern table has. -/
def outboundLosses (tr : List (Ipv4Step cfg)) : Nat :=
  tr.countP fun t => decide (MakesMapping cfg t.pre t.input) && t.pre.napt.losses.outbound

theorem mappings_snoc (tr : List (Ipv4Step cfg)) (t : Ipv4Step cfg) :
    mappings (tr ++ [t]) = mappings tr + if MakesMapping cfg t.pre t.input then 1 else 0 := by
  simp [mappings, List.countP_singleton]

theorem inboundLosses_snoc (tr : List (Ipv4Step cfg)) (t : Ipv4Step cfg) :
    inboundLosses (tr ++ [t]) = inboundLosses tr +
      if MakesMapping cfg t.pre t.input ∧ t.pre.napt.externHashmap.Full then 1 else 0 := by
  simp [inboundLosses, Napt.losses, List.countP_singleton]

theorem outboundLosses_snoc (tr : List (Ipv4Step cfg)) (t : Ipv4Step cfg) :
    outboundLosses (tr ++ [t]) = outboundLosses tr +
      if MakesMapping cfg t.pre t.input ∧ t.pre.napt.internHashmap.Full then 1 else 0 := by
  simp [outboundLosses, Napt.losses, List.countP_singleton]

/-- A packet that makes a mapping inserts it in both tables. -/
theorem enlarges_of_makesMapping {t : Ipv4Step cfg} (hok : t.pre.napt.Ok)
    (hstep : ipv4Handle cfg t.pre t.input = some t.post)
    (hmakes : MakesMapping cfg t.pre t.input) :
    Enlarges t.pre.napt.externHashmap t.post.napt.externHashmap ∧
      Enlarges t.pre.napt.internHashmap t.post.napt.internHashmap := by
  obtain ⟨m, hforwards, hmiss, -⟩ := (opens_iff_makesMapping hok hstep).2 hmakes
  obtain ⟨napt', htr⟩ := hforwards.exists_translate
  obtain ⟨⟨src, dst⟩, hports⟩ := hforwards.exists_ports
  have hlock : t.pre.napt.internHashmap.lock = false := by
    rw [Bool.eq_false_iff]
    intro hlock
    have hspec := naptOutTranslate_spec cfg hok t.input.rand hports
    rw [if_pos hlock] at hspec
    cases hspec.symm.trans htr
  have hpost : t.post.napt = napt' := by
    rw [ipv4Handle, hforwards.1] at hstep
    simp only [naptOutHandle, htr, Option.bind_eq_bind, Option.bind_some] at hstep
    rw [← Option.some.inj hstep, sendIpv4_napt]
  obtain ⟨-, hinserts⟩ := naptOutTranslate_search hok hports hlock hmiss htr
  obtain ⟨b, externHashmap, internHashmap, hinbound, houtbound, rfl⟩ := hinserts _ rfl
  rw [hpost]
  exact ⟨(hashmapInsert_enlarges (hok.externTable.setLock b) hinbound).of_setLock,
    (hashmapInsert_enlarges (hok.internTable.setLock true) houtbound).of_setLock⟩

theorem tables_of_not_makesMapping {t : Ipv4Step cfg} (hok : t.pre.napt.Ok)
    (hstep : ipv4Handle cfg t.pre t.input = some t.post)
    (hmakes : ¬ MakesMapping cfg t.pre t.input) :
    ∃ b, t.post.napt =
      { t.pre.napt with internHashmap := t.pre.napt.internHashmap.setLock b } := by
  rcases (napt_step_cases hok hstep).2 with ⟨m, hopens, -⟩ | ⟨-, hsame⟩
  · exact absurd ((opens_iff_makesMapping hok hstep).1 ⟨m, (hopens m).2 rfl⟩) hmakes
  · exact hsame

theorem doubled_of_run {r s : Router} {tr : List (Ipv4Step cfg)} (h : Ipv4Run cfg r tr s) :
    Doubled s.napt.externHashmap (mappings tr) (inboundLosses tr) ∧
      Doubled s.napt.internHashmap (mappings tr) (outboundLosses tr) := by
  induction h with
  | nil => exact ⟨doubled_init .., doubled_init ..⟩
  | @snoc tr s s' i hrun hstep ih =>
    obtain ⟨hinbound, houtbound⟩ := ih
    have hok := (napt_history hrun).1
    let t : Ipv4Step cfg := ⟨s, i, s'⟩
    rw [mappings_snoc, inboundLosses_snoc, outboundLosses_snoc]
    by_cases hmakes : MakesMapping cfg s i
    · obtain ⟨hinbound', houtbound'⟩ := enlarges_of_makesMapping (t := t) hok hstep hmakes
      simp only [hmakes, true_and, if_true]
      exact ⟨hinbound.insert hinbound', houtbound.insert houtbound'⟩
    · obtain ⟨b, hpost⟩ := tables_of_not_makesMapping (t := t) hok hstep hmakes
      have hpost' : s'.napt = _ := hpost
      simp only [hmakes, false_and, if_false, Nat.add_zero, hpost']
      exact ⟨hinbound, houtbound.setLock b⟩

/-- **Losses are few.** In every run each table forgets at most about as often as the logarithm
of the number of mappings that were made, whatever the hashes are; and how often it has forgotten
is all that the size of its memory depends on. -/
theorem losses_bounded {r s : Router} {tr : List (Ipv4Step cfg)} (h : Ipv4Run cfg r tr s) :
    inboundLosses tr ≤ Nat.log 2 (mappings tr / 3) ∧
      outboundLosses tr ≤ Nat.log 2 (mappings tr / 3) ∧
      s.napt.externHashmap.sizeAllocated + 1 = 12 * 2 ^ inboundLosses tr ∧
      s.napt.internHashmap.sizeAllocated + 1 = 12 * 2 ^ outboundLosses tr := by
  obtain ⟨hinbound, houtbound⟩ := doubled_of_run h
  exact ⟨hinbound.le_log, houtbound.le_log, hinbound.capacity, houtbound.capacity⟩

/-- Twelve flows: the bound is met by the extern table. -/
theorem losses_bounded_twelve :
    ∃ tr s, Ipv4Run shippedConfig routerInit tr s ∧ mappings tr = 12 ∧ inboundLosses tr = 2 ∧
      outboundLosses tr = 1 ∧ inboundLosses tr ≤ Nat.log 2 (mappings tr / 3) ∧
      s.napt.externHashmap.sizeAllocated + 1 = 12 * 2 ^ inboundLosses tr := by
  obtain ⟨tr, t, hrun, -, hlast⟩ := exists_run_snoc (ipv4Handle shippedConfig) routerInit
    ((List.range 11).map nthFlow) (nthFlow 11)
    (fun tr t => decide (mappings (tr ++ [t]) = 12 ∧ inboundLosses (tr ++ [t]) = 2 ∧
      outboundLosses (tr ++ [t]) = 1)) (by decide +kernel)
  obtain ⟨hmappings, hinbound, houtbound⟩ := of_decide_eq_true hlast
  obtain ⟨hle, -, hcapacity, -⟩ := losses_bounded (r := routerInit) hrun
  exact ⟨tr ++ [t], t.post, hrun, hmappings, hinbound, houtbound, hle, hcapacity⟩

end NaptRouter

/-
# The timer table

What holds of a timer table at every moment: the active timers are in the slots that
the limits allow, under different handles, and each of these was issued before. A
handle that was issued and is not active is gone: no import brings it back, since new
timers get a handle that was never issued.
-/

import EspContainer.Runtime.Passages
import Mathlib.Data.Finset.Card
import Mathlib.Data.Fintype.Basic

namespace Container

open Interaction Package

/-! ## Handles -/

/-- A handle below the counter; a counter that is zero has issued them all. -/
def Issued (nextTimerHandle handle : UInt64) : Prop :=
  handle ≠ 0 ∧ (nextTimerHandle = 0 ∨ handle < nextTimerHandle)

/-- The next handle counts as issued once it is. -/
theorem issued_next {nextTimerHandle : UInt64} (hnext : nextTimerHandle ≠ 0) :
    Issued (nextTimerHandle + 1) nextTimerHandle := by
  refine ⟨hnext, ?_⟩
  by_cases hwrap : nextTimerHandle + 1 = 0
  · exact .inl hwrap
  · right
    rw [← UInt64.toNat_inj, UInt64.toNat_add] at hwrap
    rw [UInt64.lt_iff_toNat_lt, UInt64.toNat_add]
    have hbound := nextTimerHandle.toNat_lt
    simp only [UInt64.toNat_one, UInt64.toNat_zero] at hwrap ⊢
    omega

/-- What was issued stays so. -/
theorem Issued.next {nextTimerHandle handle : UInt64} (hnext : nextTimerHandle ≠ 0)
    (hissued : Issued nextTimerHandle handle) : Issued (nextTimerHandle + 1) handle := by
  obtain ⟨hhandle, hzero | hbelow⟩ := hissued
  · exact absurd hzero hnext
  · refine ⟨hhandle, ?_⟩
    obtain ⟨-, hwrap | hless⟩ := issued_next hnext
    · exact .inl hwrap
    · exact .inr (UInt64.lt_trans hbelow hless)

/-- The next handle was never issued. -/
theorem not_issued_next {nextTimerHandle : UInt64} (hnext : nextTimerHandle ≠ 0) :
    ¬ Issued nextTimerHandle nextTimerHandle := by
  rintro ⟨-, hzero | hless⟩
  · exact hnext hzero
  · exact absurd hless (UInt64.lt_irrefl _)

/-! ## Tables -/

/-- The timer table of a host is in order. -/
structure Host.Orderly (host : Host) : Prop where
  confined : host.runtime.Confined
  distinct : ∀ first second, (host.runtime.timers first).active = true →
    (host.runtime.timers second).active = true →
    (host.runtime.timers first).handle = (host.runtime.timers second).handle → first = second
  issued : ∀ index, (host.runtime.timers index).active = true →
    Issued host.nextTimerHandle (host.runtime.timers index).handle

/-- A handle that was issued and is not active. -/
def Host.Gone (host : Host) (handle : UInt64) : Prop :=
  Issued host.nextTimerHandle handle ∧ ¬ host.runtime.Live handle

namespace Host

theorem Orderly.issued_of_live {host : Host} (horderly : host.Orderly) {handle : UInt64}
    (hlive : host.runtime.Live handle) : Issued host.nextTimerHandle handle := by
  obtain ⟨index, hactive, rfl⟩ := hlive
  exact horderly.issued index hactive

/-- Fading keeps the table in order. -/
theorem Fades.orderly {before after : Host} (hfades : before.Fades after)
    (horderly : before.Orderly) : after.Orderly where
  confined := hfades.runtime.confined horderly.confined
  distinct := by
    intro first second hfirst hsecond hhandle
    obtain ⟨hfirst', hkept⟩ := hfades.runtime.timers first hfirst
    obtain ⟨hsecond', hkept'⟩ := hfades.runtime.timers second hsecond
    rw [hkept, hkept'] at hhandle
    exact horderly.distinct first second hfirst' hsecond' hhandle
  issued := by
    intro index hactive
    obtain ⟨hbefore, hkept⟩ := hfades.runtime.timers index hactive
    rw [hfades.next, hkept]
    exact horderly.issued index hbefore

/-- Fading brings no handle back. -/
theorem Fades.gone {before after : Host} (hfades : before.Fades after) {handle : UInt64}
    (hgone : before.Gone handle) : after.Gone handle := by
  refine ⟨?_, mt hfades.runtime.live hgone.2⟩
  rw [hfades.next]
  exact hgone.1

end Host

/-! ## Imports -/

/-- A timer that is started under the next handle. -/
theorem active_setTimer {runtime : Runtime} {slot index : Fin timerCapacity} {timer : Timer}
    (hactive : ((runtime.setTimer slot timer).timers index).active = true) :
    index = slot ∧ (runtime.setTimer slot timer).timers index = timer ∨
      index ≠ slot ∧ (runtime.timers index).active = true ∧
        (runtime.setTimer slot timer).timers index = runtime.timers index := by
  simp only [Runtime.setTimer, Function.update_apply] at hactive ⊢
  split at hactive
  · next heq => exact .inl ⟨heq, if_pos heq⟩
  · next hne => exact .inr ⟨hne, hactive, if_neg hne⟩

/-- Imports keep the table in order. -/
theorem Effect.orderly {imported : Imported} (heffect : Effect imported)
    (horderly : imported.before.Orderly) : imported.after.Orderly := by
  have hconfined := heffect.confined horderly.confined
  rcases heffect.fades_or_starts with ⟨hfades, -⟩ | ⟨slot, timer, hfree, hnext, hhandle, hafter, -⟩
  · exact hfades.orderly horderly
  rw [hafter] at hconfined ⊢
  refine ⟨hconfined, ?_, ?_⟩
  · intro first second hfirst hsecond hsame
    -- An older timer has a handle that was issued, so not the next one.
    have hold : ∀ index, (imported.before.runtime.timers index).active = true →
        (imported.before.runtime.timers index).handle ≠ timer.handle := by
      intro index hactive heq
      have hissued := horderly.issued index hactive
      rw [heq, hhandle] at hissued
      exact not_issued_next hnext hissued
    rcases active_setTimer hfirst with ⟨rfl, heq⟩ | ⟨-, hactive, heq⟩
    · rcases active_setTimer hsecond with ⟨rfl, heq'⟩ | ⟨-, hactive', heq'⟩
      · rfl
      · rw [heq, heq'] at hsame
        exact absurd hsame.symm (hold second hactive')
    · rcases active_setTimer hsecond with ⟨rfl, heq'⟩ | ⟨-, hactive', heq'⟩
      · rw [heq, heq'] at hsame
        exact absurd hsame (hold first hactive)
      · rw [heq, heq'] at hsame
        exact horderly.distinct first second hactive hactive' hsame
  · intro index hactive
    rcases active_setTimer hactive with ⟨-, heq⟩ | ⟨-, hbefore, heq⟩
    · simp only [heq, hhandle]
      exact issued_next hnext
    · simp only [heq]
      exact (horderly.issued index hbefore).next hnext

/-- Imports bring no handle back. -/
theorem Effect.gone {imported : Imported} (heffect : Effect imported) {handle : UInt64}
    (hgone : imported.before.Gone handle) : imported.after.Gone handle := by
  rcases heffect.fades_or_starts with ⟨hfades, -⟩ | ⟨slot, timer, hfree, hnext, hhandle, hafter, -⟩
  · exact hfades.gone hgone
  rw [hafter]
  refine ⟨hgone.1.next hnext, ?_⟩
  rintro ⟨index, hactive, rfl⟩
  rcases active_setTimer hactive with ⟨-, heq⟩ | ⟨-, hbefore, heq⟩
  · have hissued := hgone.1
    simp only [heq, hhandle] at hissued
    exact not_issued_next hnext hissued
  · apply hgone.2
    simp only [heq]
    exact ⟨index, hbefore, rfl⟩

/-- The handle an import cancelled: that of `timer_cancel`, if it returned 0. -/
def Imported.cancelled (imported : Imported) : List UInt64 :=
  match imported.call, imported.answer with
  | .timerCancel handle, answer => if answer = (0 : Int32) then [handle] else []
  | _, _ => []

/-- The slot of a handle is one in which it is active. -/
theorem Runtime.slotOf_spec {runtime : Runtime} {handle : UInt64} {slot : Fin timerCapacity}
    (hslot : runtime.slotOf handle = some slot) :
    (runtime.timers slot).active = true ∧ (runtime.timers slot).handle = handle := by
  have hfound := List.find?_some hslot
  simp only [Bool.and_eq_true, beq_iff_eq] at hfound
  exact ⟨hfound.1.2, hfound.2⟩

/-- A timer that is active is in a slot of the table. -/
theorem Runtime.Confined.hasSlot {runtime : Runtime} (hconfined : runtime.Confined)
    {index : Fin timerCapacity} (hactive : (runtime.timers index).active = true) :
    runtime.hasSlot index = true := by
  by_contra hnone
  rw [hconfined index (Bool.not_eq_true _ ▸ hnone)] at hactive
  cases hactive

/-- A handle that is live has a slot. -/
theorem Runtime.slotOf_of_live {runtime : Runtime} (hconfined : runtime.Confined) {handle : UInt64}
    (hlive : runtime.Live handle) : ∃ slot, runtime.slotOf handle = some slot := by
  obtain ⟨index, hactive, hhandle⟩ := hlive
  have hslot := hconfined.hasSlot hactive
  rw [← Option.isSome_iff_exists, Runtime.slotOf, List.find?_isSome]
  exact ⟨index, List.mem_finRange index, by simp [hslot, hactive, hhandle]⟩

/-- A timer that is put out leaves its handle dead, if no other slot has it. -/
theorem Host.Orderly.not_live_setTimer {host : Host} (horderly : host.Orderly)
    {slot : Fin timerCapacity} (hactive : (host.runtime.timers slot).active = true) {timer : Timer}
    (hout : timer.active = false) :
    ¬ (host.runtime.setTimer slot timer).Live (host.runtime.timers slot).handle := by
  rintro ⟨index, hactive', hhandle⟩
  rcases active_setTimer hactive' with ⟨-, heq⟩ | ⟨hne, hbefore, heq⟩
  · rw [heq, hout] at hactive'
    cases hactive'
  · rw [heq] at hhandle
    exact hne (horderly.distinct index slot hbefore hactive hhandle)

/-- A cancel that succeeds ends a live handle, for good. -/
theorem Effect.cancelled_spec {imported : Imported} (heffect : Effect imported)
    (horderly : imported.before.Orderly) {handle : UInt64} (hcancelled : handle ∈ imported.cancelled) :
    imported.before.runtime.Live handle ∧ imported.before.runtime.stopping = false ∧
      imported.after.Gone handle := by
  have hdenied : ∀ (call : ImportCall) (world : Surroundings) (before after : Host)
      (answer : call.Answer), Denied call answer →
      (Imported.mk call world before answer after).cancelled = [] := by
    intro call world before after answer hanswer
    cases call with
    | timerCancel handle =>
        obtain rfl : answer = -1 := hanswer
        rfl
    | _ => rfl
  cases heffect with
  | idle hcheck hanswer =>
      rw [hdenied _ _ _ _ _ hanswer] at hcancelled
      cases hcancelled
  | expired hcheck hanswer =>
      rw [hdenied _ _ _ _ _ hanswer] at hcancelled
      cases hcancelled
  | logged hcheck hempty hsize => cases hcancelled
  | started hcheck hstopping hnext hfree => cases hcancelled
  | @cancelled _ world host slot hcheck hstopping hslot =>
      obtain rfl := List.mem_singleton.mp hcancelled
      obtain ⟨hactive, hhandle⟩ := Runtime.slotOf_spec hslot
      have hlive : host.runtime.Live handle := ⟨slot, hactive, hhandle⟩
      refine ⟨hlive, hstopping, horderly.issued_of_live hlive, ?_⟩
      rw [← hhandle]
      exact horderly.not_live_setTimer hactive rfl

/-- A cancel that is let through succeeds exactly for live handles, unless the instance is
stopping. -/
theorem cancelled_importOnce {host : Host} (hlimits : limitsValid host.runtime.limits = true)
    (horderly : host.Orderly) {world : Surroundings}
    (hgranted : nativeOwner world host.runtime = .granted) (handle : UInt64) :
    (importOnce (.timerCancel handle) world host).cancelled = [handle] ↔
      host.runtime.Live handle ∧ host.runtime.stopping = false := by
  constructor
  · intro hcancelled
    have hmem : handle ∈ (importOnce (.timerCancel handle) world host).cancelled := by
      rw [hcancelled]
      exact List.mem_singleton_self handle
    obtain ⟨hlive, hstopping, -⟩ :=
      (effect_importOnce (.timerCancel handle) world host).cancelled_spec horderly hmem
    exact ⟨hlive, hstopping⟩
  · rintro ⟨hlive, hstopping⟩
    have hhandle : handle ≠ 0 := (horderly.issued_of_live hlive).1
    obtain ⟨slot, hslot⟩ := Runtime.slotOf_of_live horderly.confined hlive
    have hallowed : host.runtime.limits.allows capTimer = true := by
      obtain ⟨index, hactive, -⟩ := hlive
      exact (event_fits hlimits (horderly.confined.hasSlot hactive)).1
    have hanswer : (nativeTimerCancel handle world host).answer = 0 := by
      simp [nativeTimerCancel, hostImport, hgranted, hallowed, hstopping, hhandle, hslot]
    exact if_pos hanswer

/-- No more timers are active than the limits allow. -/
theorem Runtime.Confined.card_le {runtime : Runtime} (hconfined : runtime.Confined) :
    (Finset.univ.filter fun index => (runtime.timers index).active = true).card ≤
      runtime.limits.maxTimers.toNat := by
  rw [← Finset.card_range runtime.limits.maxTimers.toNat]
  apply Finset.card_le_card_of_injOn Fin.val
  · intro index hindex
    have hslot := hconfined.hasSlot (Finset.mem_filter.mp hindex).2
    simpa [Runtime.hasSlot] using hslot
  · exact Fin.val_injective.injOn

/-! ## Handles of an instance -/

/-- The table is in order, and the handles in it are on a list of issued ones. -/
structure Tabled (handles : List UInt64) (host : Host) : Prop where
  orderly : host.Orderly
  listed : ∀ index, (host.runtime.timers index).active = true →
    (host.runtime.timers index).handle ∈ handles
  below : ∀ handle ∈ handles, Issued host.nextTimerHandle handle

theorem Host.Fades.tabled {before after : Host} (hfades : before.Fades after)
    {handles : List UInt64} (htabled : Tabled handles before) : Tabled handles after where
  orderly := hfades.orderly htabled.orderly
  listed := by
    intro index hactive
    obtain ⟨hbefore, hkept⟩ := hfades.runtime.timers index hactive
    rw [hkept]
    exact htabled.listed index hbefore
  below := by
    rw [hfades.next]
    exact htabled.below

theorem Effect.tabled {imported : Imported} (heffect : Effect imported) {handles : List UInt64}
    (htabled : Tabled handles imported.before) : Tabled (handles ++ imported.issued) imported.after := by
  have horderly := heffect.orderly htabled.orderly
  rcases heffect.fades_or_starts with
    ⟨hfades, hissued⟩ | ⟨slot, timer, hfree, hnext, hhandle, hafter, hissued⟩
  · rw [hissued, List.append_nil]
    exact hfades.tabled htabled
  rw [hissued]
  refine ⟨horderly, ?_, ?_⟩
  · rw [hafter]
    intro index hactive
    rw [List.mem_append, List.mem_singleton]
    rcases active_setTimer hactive with ⟨-, heq⟩ | ⟨-, hbefore, heq⟩
    · right
      simp only [heq, hhandle]
    · left
      simp only [heq]
      exact htabled.listed index hbefore
  · rw [hafter]
    intro handle hmem
    rcases List.mem_append.mp hmem with hmem | hmem
    · exact (htabled.below handle hmem).next hnext
    · rw [List.mem_singleton.mp hmem]
      exact issued_next hnext

/-- The imports of an entry add the handles they issue. -/
theorem tabled_of_imports {first last : Host} {imported : List Imported}
    (hwalk : Walk ImportStep first imported last) {handles : List UInt64}
    (htabled : Tabled handles first) : Tabled (handles ++ imported.flatMap Imported.issued) last := by
  have hfirst : Tabled (handles ++ ([] : List Imported).flatMap Imported.issued) first := by
    rwa [List.flatMap_nil, List.append_nil]
  apply hwalk.preservesAlong (J := fun past host =>
    Tabled (handles ++ past.flatMap Imported.issued) host) _ hfirst
  rintro past _ imported _ htabled ⟨rfl, rfl, heffect, -⟩
  rw [List.flatMap_append, List.flatMap_singleton, ← List.append_assoc]
  exact heffect.tabled htabled

/-! ## The order of handles -/

/-- The handles issued so far, in increasing order. -/
structure Ledger (handles : List UInt64) (nextTimerHandle : UInt64) : Prop where
  increasing : handles.Pairwise (· < ·)
  issued : ∀ handle ∈ handles, Issued nextTimerHandle handle

theorem Effect.ledger {imported : Imported} (heffect : Effect imported) {handles : List UInt64}
    (hledger : Ledger handles imported.before.nextTimerHandle) :
    Ledger (handles ++ imported.issued) imported.after.nextTimerHandle := by
  rcases heffect.fades_or_starts with
    ⟨hfades, hissued⟩ | ⟨slot, timer, hfree, hnext, hhandle, hafter, hissued⟩
  · rw [hissued, List.append_nil, hfades.next]
    exact hledger
  rw [hissued, hafter]
  constructor
  · rw [List.pairwise_append]
    refine ⟨hledger.increasing, List.pairwise_singleton _ _, ?_⟩
    intro handle hmem next hsingle
    obtain rfl := List.mem_singleton.mp hsingle
    obtain ⟨-, hzero | hless⟩ := hledger.issued handle hmem
    · exact absurd hzero hnext
    · exact hless
  · intro handle hmem
    rcases List.mem_append.mp hmem with hmem | hmem
    · exact (hledger.issued handle hmem).next hnext
    · rw [List.mem_singleton.mp hmem]
      exact issued_next hnext

theorem ledger_of_imports {first last : Host} {imported : List Imported}
    (hwalk : Walk ImportStep first imported last) {handles : List UInt64}
    (hledger : Ledger handles first.nextTimerHandle) :
    Ledger (handles ++ imported.flatMap Imported.issued) last.nextTimerHandle := by
  have hfirst : Ledger (handles ++ ([] : List Imported).flatMap Imported.issued)
      first.nextTimerHandle := by
    rwa [List.flatMap_nil, List.append_nil]
  apply hwalk.preservesAlong (J := fun past host =>
    Ledger (handles ++ past.flatMap Imported.issued) host.nextTimerHandle) _ hfirst
  rintro past _ imported _ hledger ⟨rfl, rfl, heffect, -⟩
  rw [List.flatMap_append, List.flatMap_singleton, ← List.append_assoc]
  exact heffect.ledger hledger

end Container

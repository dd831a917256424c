/-
# Walks of a labelled transition system

A walk is a finite sequence of labelled steps. Four rules carry a fact about single
steps to whole walks: the invariant rule, the conservation rule for what is put in
and taken out in order, the draining rule for names that wait to be taken once, and the
spending rule for names that may be used only until they are retired.

Each rule speaks of an invariant and of steps that start where it holds, so a walk of
large steps can be summed up from what is known of each of them.
-/

import Mathlib.Data.List.Basic

namespace Interaction

variable {σ ε β γ : Type}

/-- Labelled steps, one after the other. -/
inductive Walk (step : σ → ε → σ → Prop) : σ → List ε → σ → Prop
  | stay (state : σ) : Walk step state [] state
  | move {first middle last : σ} {event : ε} {events : List ε}
      (hstep : step first event middle) (hrest : Walk step middle events last) :
      Walk step first (event :: events) last

namespace Walk

variable {step : σ → ε → σ → Prop} {first last : σ} {events : List ε}

/-- Walks compose. -/
theorem append {middle : σ} {events' : List ε} (hfirst : Walk step first events middle)
    (hsecond : Walk step middle events' last) : Walk step first (events ++ events') last := by
  induction hfirst with
  | stay state => exact hsecond
  | move hstep hrest ih => exact .move hstep (ih hsecond)

/-- A walk can be cut anywhere. -/
theorem cut {earlier later : List ε} (hwalk : Walk step first (earlier ++ later) last) :
    ∃ middle, Walk step first earlier middle ∧ Walk step middle later last := by
  induction earlier generalizing first with
  | nil => exact ⟨first, .stay _, hwalk⟩
  | cons head earlier ih =>
      cases hwalk with
      | move hstep hrest =>
          obtain ⟨middle, hearlier, hlater⟩ := ih hrest
          exact ⟨middle, .move hstep hearlier, hlater⟩

/-- A walk can be cut before and after any event. -/
theorem split {earlier later : List ε} {event : ε}
    (hwalk : Walk step first (earlier ++ event :: later) last) :
    ∃ before after, Walk step first earlier before ∧ step before event after ∧
      Walk step after later last := by
  obtain ⟨before, hearlier, hrest⟩ := hwalk.cut
  cases hrest with
  | move hevent hlater => exact ⟨before, _, hearlier, hevent, hlater⟩

/-- What is known of the events of a walk is known at every step. -/
theorem restrict {kind : ε → Prop} (hwalk : Walk step first events last)
    (hkind : ∀ event ∈ events, kind event) :
    Walk (fun before event after => step before event after ∧ kind event) first events last := by
  induction hwalk with
  | stay state => exact .stay state
  | move hstep hrest ih =>
      rw [List.forall_mem_cons] at hkind
      exact .move ⟨hstep, hkind.1⟩ (ih hkind.2)

/-- The invariant rule, for what may also depend on the events so far. -/
theorem preservesAlong {J : List ε → σ → Prop}
    (hstep : ∀ past before event after, J past before → step before event after →
      J (past ++ [event]) after)
    (hwalk : Walk step first events last) {past : List ε} (hfirst : J past first) :
    J (past ++ events) last := by
  induction hwalk generalizing past with
  | stay state => simpa using hfirst
  | @move _ _ _ event events hevent hrest ih =>
      have hlast := ih (hstep _ _ _ _ hfirst hevent)
      rwa [List.append_assoc, List.singleton_append] at hlast

variable {J : σ → Prop}

/-- The invariant rule. -/
theorem preserves
    (hstep : ∀ before event after, J before → step before event after → J after)
    (hwalk : Walk step first events last) (hfirst : J first) : J last :=
  @preservesAlong _ _ _ _ _ _ (fun _ => J) (fun _ => hstep) hwalk [] hfirst

/-- What every step shows of its event holds of every event of a walk. -/
theorem forall_mem {kind : ε → Prop}
    (hstep : ∀ before event after, J before → step before event after → J after)
    (hkind : ∀ before event after, J before → step before event after → kind event)
    (hwalk : Walk step first events last) (hfirst : J first) :
    ∀ event ∈ events, kind event := by
  intro event hevent
  obtain ⟨earlier, later, rfl⟩ := List.append_of_mem hevent
  obtain ⟨before, after, hearlier, hmove, -⟩ := hwalk.split
  exact hkind _ _ _ (hearlier.preserves hstep hfirst) hmove

/-- The conservation rule: if each step takes from the front of what is held and puts
at its end, then so does a walk. -/
theorem conserves (held : σ → List β) (put taken : ε → List β)
    (hstep : ∀ before event after, J before → step before event after → J after)
    (hheld : ∀ before event after, J before → step before event after →
      taken event ++ held after = held before ++ put event)
    (hwalk : Walk step first events last) (hfirst : J first) :
    events.flatMap taken ++ held last = held first ++ events.flatMap put := by
  induction hwalk with
  | stay state => simp
  | @move first middle last event events hevent hrest ih =>
      rw [List.flatMap_cons, List.flatMap_cons, List.append_assoc,
        ih (hstep _ _ _ hfirst hevent), ← List.append_assoc, hheld _ _ _ hfirst hevent,
        List.append_assoc]

/-- The draining rule: if each step takes names that are waiting and then wait no longer, and
no name starts to wait, then no name is taken twice, and all of them waited at first. -/
theorem drains (waiting : σ → β → Prop) (taken : ε → List β)
    (hstep : ∀ before event after, J before → step before event after → J after)
    (hnodup : ∀ before event after, J before → step before event after → (taken event).Nodup)
    (htaken : ∀ before event after, J before → step before event after →
      ∀ name ∈ taken event, waiting before name ∧ ¬ waiting after name)
    (hwaiting : ∀ before event after, J before → step before event after →
      ∀ name, waiting after name → waiting before name)
    (hwalk : Walk step first events last) (hfirst : J first) :
    (events.flatMap taken).Nodup ∧ ∀ name ∈ events.flatMap taken, waiting first name := by
  induction hwalk with
  | stay state => simp
  | @move first middle last event events hevent hrest ih =>
      obtain ⟨hlater, hlaterWaiting⟩ := ih (hstep _ _ _ hfirst hevent)
      rw [List.flatMap_cons]
      constructor
      · rw [List.nodup_append]
        refine ⟨hnodup _ _ _ hfirst hevent, hlater, fun name hname later hlaterName heq => ?_⟩
        subst heq
        exact (htaken _ _ _ hfirst hevent name hname).2 (hlaterWaiting name hlaterName)
      · intro name hname
        rcases List.mem_append.mp hname with hname | hname
        · exact (htaken _ _ _ hfirst hevent name hname).1
        · exact hwaiting _ _ _ hfirst hevent name (hlaterWaiting name hname)

end Walk

/-! ## Spending names -/

/-- From one state to another by these events, names are used only until they are
retired. `spent` says of a state which names can no longer be used. -/
structure Spends (spent : σ → β → Prop) (retires uses : ε → β → Prop) (first : σ)
    (events : List ε) (last : σ) : Prop where
  ordered : events.Pairwise fun earlier later => ∀ name, retires earlier name → ¬ uses later name
  retired : ∀ event ∈ events, ∀ name, retires event name → spent last name
  unspent : ∀ event ∈ events, ∀ name, uses event name → ¬ spent first name
  kept : ∀ name, spent first name → spent last name

namespace Spends

variable {spent : σ → β → Prop} {retires uses : ε → β → Prop} {first middle last : σ}

/-- Nothing happens, and nothing becomes usable again. -/
theorem nil (hkept : ∀ name, spent first name → spent last name) :
    Spends spent retires uses first ([] : List ε) last where
  ordered := .nil
  retired := by simp
  unspent := by simp
  kept := hkept

/-- One event. -/
theorem single {event : ε} (hretired : ∀ name, retires event name → spent last name)
    (hunspent : ∀ name, uses event name → ¬ spent first name)
    (hkept : ∀ name, spent first name → spent last name) :
    Spends spent retires uses first [event] last where
  ordered := List.pairwise_singleton _ _
  retired := by simpa using hretired
  unspent := by simpa using hunspent
  kept := hkept

/-- The same events between other states, whose names are spent at least where needed. -/
theorem view {σ' : Type} {spent' : σ' → β → Prop} {first' last' : σ'} {events : List ε}
    (hspends : Spends spent retires uses first events last)
    (hfirst : ∀ name, spent' first' name → spent first name)
    (hlast : ∀ name, spent last name → spent' last' name) :
    Spends spent' retires uses first' events last' where
  ordered := hspends.ordered
  retired := fun event hevent name hretires => hlast name (hspends.retired event hevent name hretires)
  unspent := fun event hevent name huses hspent =>
    hspends.unspent event hevent name huses (hfirst name hspent)
  kept := fun name hspent => hlast name (hspends.kept name (hfirst name hspent))

/-- Events that only retire. -/
theorem retiring {events : List ε} (hunused : ∀ event ∈ events, ∀ name, ¬ uses event name)
    (hretired : ∀ event ∈ events, ∀ name, retires event name → spent last name)
    (hkept : ∀ name, spent first name → spent last name) :
    Spends spent retires uses first events last where
  ordered := by
    apply List.pairwise_of_forall_mem_list
    intro earlier hearlier later hlater name hretires
    exact hunused later hlater name
  retired := hretired
  unspent := fun event hevent name huses => absurd huses (hunused event hevent name)
  kept := hkept

/-- Spending composes: what is retired early is spent when the later events begin. -/
theorem append {events events' : List ε} (hfirst : Spends spent retires uses first events middle)
    (hsecond : Spends spent retires uses middle events' last) :
    Spends spent retires uses first (events ++ events') last where
  ordered := by
    rw [List.pairwise_append]
    refine ⟨hfirst.ordered, hsecond.ordered, fun earlier hearlier later hlater name hretires => ?_⟩
    intro huses
    exact hsecond.unspent later hlater name huses (hfirst.retired earlier hearlier name hretires)
  retired := by
    intro event hevent name hretires
    rcases List.mem_append.mp hevent with hevent | hevent
    · exact hsecond.kept name (hfirst.retired event hevent name hretires)
    · exact hsecond.retired event hevent name hretires
  unspent := by
    intro event hevent name huses hspent
    rcases List.mem_append.mp hevent with hevent | hevent
    · exact hfirst.unspent event hevent name huses hspent
    · exact hsecond.unspent event hevent name huses (hfirst.kept name hspent)
  kept := fun name hspent => hsecond.kept name (hfirst.kept name hspent)

end Spends

/-- The spending rule: what holds of the parts of every step holds of the whole walk. -/
theorem Walk.spends {spent : σ → β → Prop} {retires uses : γ → β → Prop} (parts : ε → List γ)
    {step : σ → ε → σ → Prop} {J : σ → Prop} {first last : σ} {events : List ε}
    (hstep : ∀ before event after, J before → step before event after → J after)
    (hparts : ∀ before event after, J before → step before event after →
      Spends spent retires uses before (parts event) after)
    (hwalk : Walk step first events last) (hfirst : J first) :
    Spends spent retires uses first (events.flatMap parts) last := by
  induction hwalk with
  | stay state => exact .nil fun _ hspent => hspent
  | move hevent hrest ih =>
      rw [List.flatMap_cons]
      exact (hparts _ _ _ hfirst hevent).append (ih (hstep _ _ _ hfirst hevent))

end Interaction

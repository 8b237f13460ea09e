/-
Handles release what they were given for, once.

Whoever registers something at a host is given a handle.  Disposing the handle releases not the
registration itself but something that looks like it: the first listener that is equal, or the
command of that name.  So a handle that is disposed twice, or long after its name was registered
anew, might release what belongs to somebody else.  It does not, because a handle forgets what it
stands for when it is disposed.  Here the handles are kept in a ledger beside the host, and what is
registered at the host is compared with the handles in the ledger that are still live.

Main definitions:

* `Edl.Enrolment`, `Edl.Grant` — what can be registered, and a handle with what it was given for;
* `Edl.Ledger`, `Edl.Turn`, `Edl.Ledger.run` — a host and its handles, and what is done to them;
* `Edl.Ledger.held` — what the live handles stand for;
* `Edl.Moves` — all that a turn can do to the host and the live handles;
* `Edl.Port` — an emitter of a host, and who subscribes to it;
* `Edl.Serves` — an emitter has the listeners of the live handles.

Main results:

* `Edl.Ledger.Sound.moves_step` — what a turn does;
* `Edl.Port.perm_of_moves`, `Edl.Port.eq_of_moves` — what a turn keeps of an emitter;
* `Edl.answers_of_moves` — what a turn keeps of the commands;
* `Edl.Ledger.Sound.run_induction` — what every turn keeps is kept by a run;
* `Edl.Ledger.handles_release_their_own` — **the listeners and the commands of a host are those of
  the live handles**.
-/

import Mathlib.Logic.ExistsUnique
import Edl.Proofs.SingleService

set_option relaxedAutoImplicit false
set_option autoImplicit false

namespace Edl

/-! ### Ledgers -/

/-- What can be registered at a host. -/
inductive Enrolment where
  | listener (channel : Channel) (listener : Listener)
  | observer (collection : CollectionId) (name : String)
  | command (name : String) (handler : Handler)

namespace Enrolment

variable {σ : Type}

/-- What its handle stands for. -/
def registration : Enrolment → Registration
  | listener channel l => .listener channel l
  | observer collection name => .observer collection name
  | command name _ => .command name

/-- Registers it at a host. -/
def enrol : Enrolment → HostM σ (Subscription Registration)
  | listener channel l => HostM.subscribe channel l
  | observer collection name => HostM.observe collection name
  | command name handler => HostM.registerCommand name handler

/-- Whether a host accepts it: a command needs a name that is not taken. -/
def isFree (h : Host σ) : Enrolment → Bool
  | command name _ => !h.commands.contains name
  | _ => true

/-- The listener on the given channel. -/
def listens? (channel : Channel) : Enrolment → Option Listener
  | listener other l => if other = channel then some l else none
  | _ => none

/-- The observer of the given collection. -/
def observes? (collection : CollectionId) : Enrolment → Option String
  | observer other name => if other = collection then some name else none
  | _ => none

/-- The handler of the command of the given name. -/
def answers? (name : String) : Enrolment → Option Handler
  | command other handler => if other = name then some handler else none
  | _ => none

end Enrolment

/-- A handle, and what it was given for. -/
structure Grant where
  purpose : Enrolment
  handle : Subscription Registration

/-- A host, and the handles that it gave, in order. -/
structure Ledger (σ : Type) where
  host : Host σ
  grants : List Grant := []

/-- Something is registered, or the handle with a number is disposed. -/
inductive Turn where
  | enrol (e : Enrolment)
  | dispose (number : Nat)

/-- What a turn asks to be registered. -/
def Turn.enrolment? : Turn → Option Enrolment
  | enrol e => some e
  | dispose _ => none

/-- What the grant is for, while its handle is not disposed. -/
def Grant.live? (g : Grant) : Option Enrolment :=
  if g.handle.disposed then none else some g.purpose

namespace Ledger

variable {σ : Type}

/-- The ledger after a turn.  A registration that is refused gives no handle. -/
def step (b : Ledger σ) : Turn → Ledger σ
  | .enrol e =>
      match e.enrol b.host with
      | (.ok handle, h) => ⟨h, b.grants ++ [⟨e, handle⟩]⟩
      | (.error _, h) => ⟨h, b.grants⟩
  | .dispose number =>
      match b.grants[number]? with
      | none => b
      | some g =>
          ⟨(HostM.dispose g.handle b.host).2,
            b.grants.set number { g with handle := g.handle.dispose }⟩

/-- The ledger after some turns. -/
def run (b : Ledger σ) (turns : List Turn) : Ledger σ :=
  turns.foldl step b

/-- What the live handles were given for, in order. -/
def live (b : Ledger σ) : List Enrolment :=
  b.grants.filterMap Grant.live?

/-- Those of the live handles that were given for something of one kind. -/
def held {ι : Type} (b : Ledger σ) (pick : Enrolment → Option ι) : List ι :=
  b.live.filterMap pick

/-- The handle with a number is live, and was given for the command of the given name. -/
def Holds (b : Ledger σ) (name : String) (number : Nat) (handler : Handler) : Prop :=
  ∃ handle, b.grants[number]? = some ⟨.command name handler, handle⟩ ∧ handle.disposed = false

/-- A handle that is live stands for what it was given for. -/
def Sound (b : Ledger σ) : Prop :=
  ∀ g ∈ b.grants, g.handle.disposed = false → g.handle = ⟨some g.purpose.registration⟩

@[simp] theorem run_cons (b : Ledger σ) (turn : Turn) (turns : List Turn) :
    b.run (turn :: turns) = (b.step turn).run turns := rfl

end Ledger

/-! ### Turns -/

namespace Host

variable {σ : Type}

/-- The host with something registered. -/
def enlist (h : Host σ) : Enrolment → Host σ
  | .listener channel l => { h with channels := h.channels.modify channel (·.subscribe l) }
  | .observer id name =>
      { h with collections := h.collections.modify id.number fun c =>
          { c with emitter := c.emitter.subscribe name } }
  | .command name handler => { h with commands := h.commands.insert name handler }

end Host

section

variable {σ : Type} {h : Host σ} {e : Enrolment}

theorem Enrolment.enrol_of_free (hfree : e.isFree h = true) :
    e.enrol h = (.ok ⟨some e.registration⟩, h.enlist e) := by
  cases e with
  | listener channel l => rfl
  | observer id name => rfl
  | command name handler =>
      exact HostM.registerCommand_of_free (by simpa [isFree] using hfree) handler

theorem Enrolment.enrol_of_taken (htaken : e.isFree h = false) :
    ∃ fault, e.enrol h = (.error fault, h) := by
  cases e with
  | listener channel l => cases htaken
  | observer id name => cases htaken
  | command name handler =>
      exact ⟨_, HostM.registerCommand_of_taken (by simpa [isFree] using htaken) handler⟩

/-- A handle without a registration is disposed already. -/
theorem Subscription.eq_of_disposed {ρ : Type} {s : Subscription ρ} (hs : s.disposed = true) :
    s = {} := by
  obtain ⟨_ | r⟩ := s
  · rfl
  · cases hs

/-- All that a turn can do to a host and the enrolments behind its live handles: nothing; what is
asked for, if the host accepts it, is registered and gets a handle; what a live handle stands for is
released. -/
inductive Moves (asked : Option Enrolment) (h : Host σ) (live : List Enrolment) :
    Host σ → List Enrolment → Prop
  | stay : Moves asked h live h live
  | gain (e : Enrolment) (hasked : asked = some e) (hfree : e.isFree h = true) :
      Moves asked h live (h.enlist e) (live ++ [e])
  | lose (front : List Enrolment) (e : Enrolment) (back : List Enrolment)
      (hlive : live = front ++ e :: back) :
      Moves asked h live (h.release e.registration) (front ++ back)

end

namespace Ledger

variable {σ : Type} {b : Ledger σ}

theorem step_enrol_of_free {e : Enrolment} (hfree : e.isFree b.host = true) :
    b.step (.enrol e) = ⟨b.host.enlist e, b.grants ++ [⟨e, ⟨some e.registration⟩⟩]⟩ := by
  simp only [step, Enrolment.enrol_of_free hfree]

theorem step_enrol_of_taken {e : Enrolment} (htaken : e.isFree b.host = false) :
    b.step (.enrol e) = b := by
  obtain ⟨fault, hrefused⟩ := Enrolment.enrol_of_taken htaken
  simp only [step, hrefused]

theorem step_dispose_of_none {number : Nat} (hnone : b.grants[number]? = none) :
    b.step (.dispose number) = b := by
  simp only [step, hnone]

/-- Disposing a handle again does nothing. -/
theorem step_dispose_of_disposed {number : Nat} {g : Grant} (hg : b.grants[number]? = some g)
    (hdisposed : g.handle.disposed = true) : b.step (.dispose number) = b := by
  obtain ⟨purpose, handle⟩ := g
  obtain rfl : handle = {} := Subscription.eq_of_disposed hdisposed
  have hset : b.grants.set number ⟨purpose, {}⟩ = b.grants := by
    obtain ⟨hlt, hget⟩ := List.getElem?_eq_some_iff.1 hg
    rw [← hget, List.set_getElem_self]
  simp only [step, hg]
  exact congrArg (Ledger.mk b.host) hset

/-- Disposing a live handle releases what it stands for. -/
theorem step_dispose_of_live {front back : List Grant} {e : Enrolment}
    (hgrants : b.grants = front ++ ⟨e, ⟨some e.registration⟩⟩ :: back) :
    b.step (.dispose front.length) =
      ⟨b.host.release e.registration, front ++ ⟨e, {}⟩ :: back⟩ := by
  have hg : b.grants[front.length]? = some ⟨e, ⟨some e.registration⟩⟩ := by
    rw [hgrants, List.getElem?_append_right (Nat.le_refl _), Nat.sub_self]
    rfl
  simp only [step, hg]
  rw [hgrants, List.set_append_right _ _ (Nat.le_refl _), Nat.sub_self]
  rfl

/-- The grant with a number, between those before and those after it. -/
theorem exists_grants_eq {number : Nat} {g : Grant} (hg : b.grants[number]? = some g) :
    ∃ front back, b.grants = front ++ g :: back ∧ number = front.length := by
  obtain ⟨hlt, hget⟩ := List.getElem?_eq_some_iff.1 hg
  refine ⟨b.grants.take number, b.grants.drop (number + 1), ?_, ?_⟩
  · rw [← hget, List.getElem_cons_drop, List.take_append_drop]
  · rw [List.length_take_of_le (Nat.le_of_lt hlt)]

theorem Sound.concat (hb : b.Sound) (h : Host σ) (e : Enrolment) :
    Sound ⟨h, b.grants ++ [⟨e, ⟨some e.registration⟩⟩]⟩ := by
  intro g hg hlive
  rcases List.mem_append.1 hg with hg | hg
  · exact hb g hg hlive
  · obtain rfl := List.mem_singleton.1 hg
    rfl

/-- A handle that is disposed need not stand for anything. -/
theorem Sound.replace (hb : b.Sound) (h : Host σ) {front back : List Grant} {g : Grant}
    (hgrants : b.grants = front ++ g :: back) :
    Sound ⟨h, front ++ ⟨g.purpose, {}⟩ :: back⟩ := by
  intro other hmem hlive
  have hother : other = ⟨g.purpose, {}⟩ ∨ other ∈ b.grants := by
    simp only [List.mem_append, List.mem_cons] at hmem
    simp only [hgrants, List.mem_append, List.mem_cons]
    rcases hmem with hmem | hmem | hmem
    · exact .inr (.inl hmem)
    · exact .inl hmem
    · exact .inr (.inr (.inr hmem))
  rcases hother with rfl | hmem
  · cases hlive
  · exact hb other hmem hlive

/-- What a turn does to the host and the live handles. -/
theorem Sound.moves_step (hb : b.Sound) (turn : Turn) :
    (b.step turn).Sound ∧
      Moves turn.enrolment? b.host b.live (b.step turn).host (b.step turn).live := by
  cases turn with
  | enrol e =>
      cases hfree : e.isFree b.host with
      | false =>
          rw [step_enrol_of_taken hfree]
          exact ⟨hb, .stay⟩
      | true =>
          have hlive : live ⟨b.host.enlist e, b.grants ++ [⟨e, ⟨some e.registration⟩⟩]⟩ =
              b.live ++ [e] := List.filterMap_append
          rw [step_enrol_of_free hfree, hlive]
          exact ⟨hb.concat _ e, .gain e rfl hfree⟩
  | dispose number =>
      cases hg : b.grants[number]? with
      | none =>
          rw [step_dispose_of_none hg]
          exact ⟨hb, .stay⟩
      | some g =>
          cases hdisposed : g.handle.disposed with
          | true =>
              rw [step_dispose_of_disposed hg hdisposed]
              exact ⟨hb, .stay⟩
          | false =>
              have hhandle := hb g (List.mem_of_getElem? hg) hdisposed
              obtain ⟨e, handle⟩ := g
              obtain rfl : handle = ⟨some e.registration⟩ := hhandle
              obtain ⟨front, back, hgrants, rfl⟩ := exists_grants_eq hg
              have hbefore : b.live =
                  front.filterMap Grant.live? ++ e :: back.filterMap Grant.live? := by
                rw [live, hgrants]
                exact List.filterMap_append
              have hafter : live ⟨b.host.release e.registration, front ++ ⟨e, {}⟩ :: back⟩ =
                  front.filterMap Grant.live? ++ back.filterMap Grant.live? :=
                List.filterMap_append
              rw [step_dispose_of_live hgrants, hafter]
              exact ⟨hb.replace _ hgrants, .lose _ e _ hbefore⟩

end Ledger

/-! ### Emitters -/

namespace Emitter

variable {ι : Type} [BEq ι] [LawfulBEq ι] {e : Emitter ι} {front back : List ι} {l : ι}

/-- Releasing a listener takes one of its occurrences away, whichever it is. -/
theorem perm_release (h : e.listeners.Perm (front ++ l :: back)) :
    (e.release l).listeners.Perm (front ++ back) := by
  have hfirst : e.listeners.Perm (l :: (front ++ back)) := h.trans List.perm_middle
  have herase := hfirst.erase l
  rwa [List.erase_cons_head] at herase

/-- If there is only one occurrence, then it is the one that is meant. -/
theorem listeners_release_of_nodup (h : e.listeners = front ++ l :: back)
    (hnodup : (front ++ l :: back).Nodup) : (e.release l).listeners = front ++ back := by
  have hfront : l ∉ front := by
    intro hmem
    exact (List.nodup_append.1 hnodup).2.2 l hmem l (List.mem_cons_self ..) rfl
  rw [listeners_release, h, List.erase_append_right _ hfront, List.erase_cons_head]

end Emitter

/-- An emitter of a host: whether the host has it, its listeners, and the listener that an enrolment
subscribes to it. -/
structure Port (σ ι : Type) [BEq ι] where
  There : Host σ → Prop
  view : Host σ → Emitter ι
  pick : Enrolment → Option ι
  there_enlist : ∀ h e, There h → There (h.enlist e)
  there_release : ∀ h e, There h → There (h.release (Enrolment.registration e))
  view_enlist : ∀ h e, There h → view (h.enlist e) = (pick e).elim (view h) (view h).subscribe
  view_release : ∀ h e, There h →
    view (h.release (Enrolment.registration e)) = (pick e).elim (view h) (view h).release

section

variable {σ ι : Type} [BEq ι] (P : Port σ ι) {asked : Option Enrolment} {h h' : Host σ}
  {live live' : List Enrolment}

theorem Port.there_of_moves (hthere : P.There h) (hmoves : Moves asked h live h' live') :
    P.There h' := by
  cases hmoves with
  | stay => exact hthere
  | gain e hasked hfree => exact P.there_enlist h e hthere
  | lose front e back hlive => exact P.there_release h e hthere

variable [LawfulBEq ι]

/-- A turn keeps the listeners those of the live handles, as often as these have them. -/
theorem Port.perm_of_moves (hthere : P.There h)
    (hperm : (P.view h).listeners.Perm (live.filterMap P.pick))
    (hmoves : Moves asked h live h' live') :
    (P.view h').listeners.Perm (live'.filterMap P.pick) := by
  cases hmoves with
  | stay => exact hperm
  | gain e hasked hfree =>
      rw [P.view_enlist h e hthere, List.filterMap_append]
      cases hpick : P.pick e with
      | none => simpa [hpick] using hperm
      | some l => simpa [hpick] using hperm.append_right [l]
  | lose front e back hlive =>
      subst hlive
      rw [P.view_release h e hthere, List.filterMap_append]
      rw [List.filterMap_append, List.filterMap_cons] at hperm
      cases hpick : P.pick e with
      | none => simpa [hpick] using hperm
      | some l =>
          simp only [hpick] at hperm
          exact Emitter.perm_release hperm

/-- A turn keeps the listeners those of the live handles, in order, if these are distinct. -/
theorem Port.eq_of_moves (hthere : P.There h) (hnodup : (live.filterMap P.pick).Nodup)
    (heq : (P.view h).listeners = live.filterMap P.pick) (hmoves : Moves asked h live h' live') :
    (P.view h').listeners = live'.filterMap P.pick := by
  cases hmoves with
  | stay => exact heq
  | gain e hasked hfree =>
      rw [P.view_enlist h e hthere, List.filterMap_append]
      cases hpick : P.pick e with
      | none => simpa [hpick] using heq
      | some l => simp [hpick, heq]
  | lose front e back hlive =>
      subst hlive
      rw [P.view_release h e hthere, List.filterMap_append]
      rw [List.filterMap_append, List.filterMap_cons] at heq hnodup
      cases hpick : P.pick e with
      | none => simpa [hpick] using heq
      | some l =>
          simp only [hpick] at heq hnodup
          exact Emitter.listeners_release_of_nodup heq hnodup

end

/-- The emitter of a channel. -/
def Channel.port (σ : Type) (channel : Channel) : Port σ Listener where
  There _ := True
  view h := h.channels.get channel
  pick := Enrolment.listens? channel
  there_enlist _ _ h := h
  there_release _ _ h := h
  view_enlist h e _ := by
    cases e with
    | observer id name => rfl
    | command name handler => rfl
    | listener other l =>
        by_cases hother : other = channel
        · subst hother
          simp [Host.enlist, Enrolment.listens?]
        · simp [Host.enlist, Enrolment.listens?, hother, Channels.get_modify_of_ne hother]
  view_release h e _ := by
    cases e with
    | observer id name => rfl
    | command name handler => rfl
    | listener other l =>
        by_cases hother : other = channel
        · subst hother
          simp [Host.release, Enrolment.registration, Enrolment.listens?]
        · simp [Host.release, Enrolment.registration, Enrolment.listens?, hother,
            Channels.get_modify_of_ne hother]

/-- The collection under a number when the one under that or another number is changed. -/
theorem Host.collection?_modify {σ : Type} (h : Host σ) (id other : CollectionId)
    (f : Collection → Collection) :
    Host.collection? { h with collections := h.collections.modify other.number f } id =
      if other = id then (h.collection? id).map f else h.collection? id := by
  split
  · next heq =>
      subst heq
      exact Registry.get?_modify_self h.collections other.number f
  · next hne =>
      exact Registry.get?_modify_of_ne fun hnumber => hne (congrArg CollectionId.mk hnumber)

/-- The emitter of a collection that the host has. -/
def CollectionId.port (σ : Type) (id : CollectionId) : Port σ String where
  There h := ∃ c, h.collection? id = some c
  view h := ((h.collection? id).map Collection.emitter).getD {}
  pick := Enrolment.observes? id
  there_enlist h e := by
    rintro ⟨c, hc⟩
    cases e with
    | listener channel l => exact ⟨c, hc⟩
    | command name handler => exact ⟨c, hc⟩
    | observer other name =>
        rw [Host.enlist, Host.collection?_modify, hc]
        split <;> exact ⟨_, rfl⟩
  there_release h e := by
    rintro ⟨c, hc⟩
    cases e with
    | listener channel l => exact ⟨c, hc⟩
    | command name handler => exact ⟨c, hc⟩
    | observer other name =>
        rw [Enrolment.registration, Host.release, Host.collection?_modify, hc]
        split <;> exact ⟨_, rfl⟩
  view_enlist h e := by
    rintro ⟨c, hc⟩
    cases e with
    | listener channel l => rfl
    | command name handler => rfl
    | observer other name =>
        rw [Host.enlist, Host.collection?_modify, hc, Enrolment.observes?]
        split <;> rfl
  view_release h e := by
    rintro ⟨c, hc⟩
    cases e with
    | listener channel l => rfl
    | command name handler => rfl
    | observer other name =>
        rw [Enrolment.registration, Host.release, Host.collection?_modify, hc, Enrolment.observes?]
        split <;> rfl

/-! ### Commands -/

/-- Under each name there is the handler of the live handle for it, if there is one, and there are
never two. -/
def Answers {σ : Type} (h : Host σ) (live : List Enrolment) : Prop :=
  ∀ name, live.filterMap (Enrolment.answers? name) = (h.commands.find? name).toList

section

variable {σ : Type} {asked : Option Enrolment} {h h' : Host σ} {live live' : List Enrolment}

/-- What is registered under a name that is not taken. -/
theorem find?_enlist {e : Enrolment} (hfree : e.isFree h = true) (name : String) :
    ((h.enlist e).commands.find? name).toList =
      (h.commands.find? name).toList ++ (e.answers? name).toList := by
  cases e with
  | listener channel l => simp [Host.enlist, Enrolment.answers?]
  | observer id observer => simp [Host.enlist, Enrolment.answers?]
  | command other handler =>
      have hnone : h.commands.find? other = none := by
        simpa [Enrolment.isFree, Table.contains] using hfree
      simp only [Host.enlist, Enrolment.answers?, Table.find?_insert]
      by_cases hname : name = other
      · subst hname
        simp [hnone]
      · simp [hname, Ne.symm hname]

/-- What is left when a name is released. -/
theorem find?_release (h : Host σ) (e : Enrolment) (name : String) :
    (h.release e.registration).commands.find? name =
      if (e.answers? name).isSome then none else h.commands.find? name := by
  cases e with
  | listener channel l => rfl
  | observer id observer => rfl
  | command other handler =>
      simp only [Enrolment.registration, Host.release, Enrolment.answers?, Table.find?_erase]
      by_cases hname : name = other
      · simp [hname]
      · simp [hname, Ne.symm hname]

/-- A turn keeps the commands those of the live handles. -/
theorem answers_of_moves (hanswers : Answers h live) (hmoves : Moves asked h live h' live') :
    Answers h' live' := by
  intro name
  have hname := hanswers name
  cases hmoves with
  | stay => exact hname
  | gain e hasked hfree =>
      rw [List.filterMap_append, hname, find?_enlist hfree]
      cases hpick : e.answers? name <;> simp [hpick]
  | lose front e back hlive =>
      subst hlive
      rw [List.filterMap_append, List.filterMap_cons] at hname
      rw [List.filterMap_append, find?_release]
      cases hpick : e.answers? name with
      | none =>
          simp only [hpick] at hname
          simpa using hname
      | some handler =>
          -- there is no other handle for the name
          simp only [hpick] at hname
          have hlength := congrArg List.length hname
          have hle := Option.length_toList_le (o := h.commands.find? name)
          simp only [List.length_append, List.length_cons] at hlength
          have hfront : front.filterMap (Enrolment.answers? name) = [] :=
            List.length_eq_zero_iff.1 (by omega)
          have hback : back.filterMap (Enrolment.answers? name) = [] :=
            List.length_eq_zero_iff.1 (by omega)
          simp [hfront, hback]

end

/-! ### Runs -/

section

variable {σ : Type} {asked : Option Enrolment} {h h' : Host σ} {live live' : List Enrolment}

/-- A turn adds at most what is asked for, behind the rest. -/
theorem Moves.sublist (hmoves : Moves asked h live h' live') :
    live'.Sublist (live ++ asked.toList) := by
  cases hmoves with
  | stay => exact List.sublist_append_left ..
  | gain e hasked hfree =>
      subst hasked
      exact List.Sublist.refl _
  | lose front e back hlive =>
      subst hlive
      have hdrop : (front ++ back).Sublist (front ++ e :: back) :=
        (List.sublist_cons_self e back).append_left front
      exact hdrop.trans (List.sublist_append_left ..)

end

namespace Ledger

variable {σ : Type} {b : Ledger σ}

/-- What every turn keeps is kept by a run. -/
theorem Sound.run_induction {I : Host σ → List Enrolment → Prop}
    (hkeep : ∀ asked h live h' live', I h live → Moves asked h live h' live' → I h' live')
    (hb : b.Sound) (hinv : I b.host b.live) (turns : List Turn) :
    I (b.run turns).host (b.run turns).live := by
  induction turns generalizing b with
  | nil => exact hinv
  | cons turn turns ih =>
      obtain ⟨hsound, hmoves⟩ := hb.moves_step turn
      exact ih hsound (hkeep _ _ _ _ _ hinv hmoves)

/-- The live handles are some of those that there were and of those that were asked for since. -/
theorem Sound.live_run_sublist (hb : b.Sound) (turns : List Turn) :
    (b.run turns).live.Sublist (b.live ++ turns.filterMap Turn.enrolment?) := by
  induction turns generalizing b with
  | nil => exact List.sublist_append_left ..
  | cons turn turns ih =>
      obtain ⟨hsound, hmoves⟩ := hb.moves_step turn
      have hrest := (ih hsound).trans (hmoves.sublist.append_right _)
      cases hasked : turn.enrolment? with
      | none => simpa [hasked] using hrest
      | some e => simpa [hasked] using hrest

end Ledger

namespace Port

variable {σ ι : Type} [BEq ι] [LawfulBEq ι] (P : Port σ ι) {b : Ledger σ}

theorem perm_of_run (hb : b.Sound) (hthere : P.There b.host)
    (hperm : (P.view b.host).listeners.Perm (b.held P.pick)) (turns : List Turn) :
    P.There (b.run turns).host ∧
      (P.view (b.run turns).host).listeners.Perm ((b.run turns).held P.pick) := by
  refine hb.run_induction (I := fun h live =>
    P.There h ∧ (P.view h).listeners.Perm (live.filterMap P.pick)) ?_ ⟨hthere, hperm⟩ turns
  rintro asked h live h' live' ⟨hthere, hperm⟩ hmoves
  exact ⟨P.there_of_moves hthere hmoves, P.perm_of_moves hthere hperm hmoves⟩

/-- The order is kept too, if at no time two live handles stand for the same listener. -/
theorem eq_of_run (hb : b.Sound) (hthere : P.There b.host)
    (heq : (P.view b.host).listeners = b.held P.pick) {turns : List Turn}
    (hnodup : ∀ front, front <+: turns → ((b.run front).held P.pick).Nodup) :
    (P.view (b.run turns).host).listeners = (b.run turns).held P.pick := by
  induction turns generalizing b with
  | nil => exact heq
  | cons turn turns ih =>
      obtain ⟨hsound, hmoves⟩ := hb.moves_step turn
      have hnow : (b.held P.pick).Nodup := hnodup [] List.nil_prefix
      refine ih hsound (P.there_of_moves hthere hmoves) (P.eq_of_moves hthere hnow heq hmoves) ?_
      intro front hfront
      exact hnodup (turn :: front) (List.cons_prefix_cons.2 ⟨rfl, hfront⟩)

end Port

/-- The listeners of an emitter are those of the live handles after some turns on a host without
handles: as often as these have them, and in their order unless two of them were, at some time, live
for the same listener. -/
structure Serves {σ ι : Type} (h : Host σ) (turns : List Turn) (pick : Enrolment → Option ι)
    (emitter : Emitter ι) : Prop where
  perm : emitter.listeners.Perm ((Ledger.run ⟨h, []⟩ turns).held pick)
  order : (∀ front, front <+: turns → ((Ledger.run ⟨h, []⟩ front).held pick).Nodup) →
    emitter.listeners = (Ledger.run ⟨h, []⟩ turns).held pick
  order_of_distinct : ((turns.filterMap Turn.enrolment?).filterMap pick).Nodup →
    emitter.listeners = (Ledger.run ⟨h, []⟩ turns).held pick

theorem Ledger.sound_nil {σ : Type} (h : Host σ) : Sound ⟨h, []⟩ := by
  intro g hg
  cases hg

/-- Listeners that are asked for only once are never held twice. -/
theorem Ledger.nodup_held_of_distinct {σ ι : Type} {pick : Enrolment → Option ι} (h : Host σ)
    {turns front : List Turn} (hfront : front <+: turns)
    (hdistinct : ((turns.filterMap Turn.enrolment?).filterMap pick).Nodup) :
    ((Ledger.run ⟨h, []⟩ front).held pick).Nodup := by
  have hlive := (sound_nil h).live_run_sublist front
  have hasked := hfront.sublist.filterMap Turn.enrolment?
  exact hdistinct.sublist ((hlive.trans hasked).filterMap pick)

theorem Port.serves {σ ι : Type} [BEq ι] [LawfulBEq ι] (P : Port σ ι) {h : Host σ}
    (hthere : P.There h) (hnone : (P.view h).listeners = []) (turns : List Turn) :
    P.There (Ledger.run ⟨h, []⟩ turns).host ∧
      Serves h turns P.pick (P.view (Ledger.run ⟨h, []⟩ turns).host) := by
  have hsound := Ledger.sound_nil h
  have hstart : (P.view h).listeners = Ledger.held ⟨h, []⟩ P.pick := hnone
  obtain ⟨hstill, hperm⟩ := P.perm_of_run hsound hthere (.of_eq hstart) turns
  refine ⟨hstill, hperm, P.eq_of_run hsound hthere hstart, fun hdistinct => ?_⟩
  refine P.eq_of_run hsound hthere hstart ?_
  intro front hfront
  exact Ledger.nodup_held_of_distinct h hfront hdistinct

/-! ### Handles of a command -/

/-- If a list yields one value, then at one place only. -/
theorem exists_place_of_filterMap {α β : Type} {f : α → Option β} {l : List α} {x : β}
    (h : l.filterMap f = [x]) :
    ∃ n, ∀ (m : Nat) (y : β), l[m]?.bind f = some y ↔ m = n ∧ y = x := by
  induction l with
  | nil => cases h
  | cons a l ih =>
      rw [List.filterMap_cons] at h
      cases ha : f a with
      | none =>
          simp only [ha] at h
          obtain ⟨n, hn⟩ := ih h
          refine ⟨n + 1, fun m y => ?_⟩
          cases m with
          | zero => simp [ha]
          | succ m => simpa using hn m y
      | some z =>
          simp only [ha, List.cons.injEq, List.filterMap_eq_nil_iff] at h
          obtain ⟨rfl, hnone⟩ := h
          refine ⟨0, fun m y => ?_⟩
          cases m with
          | zero => simp [ha, eq_comm]
          | succ m =>
              simp only [List.getElem?_cons_succ, Nat.add_eq_zero_iff, Nat.one_ne_zero, and_false,
                false_and, iff_false]
              intro hy
              obtain ⟨g, hg, hfg⟩ := Option.bind_eq_some_iff.1 hy
              rw [hnone g (List.mem_of_getElem? hg)] at hfg
              cases hfg

namespace Ledger

variable {σ : Type} {b : Ledger σ} {name : String}

theorem holds_iff {n : Nat} {handler : Handler} :
    b.Holds name n handler ↔
      b.grants[n]?.bind (fun g => g.live?.bind (Enrolment.answers? name)) = some handler := by
  rw [Option.bind_eq_some_iff]
  constructor
  · rintro ⟨handle, hg, hlive⟩
    exact ⟨_, hg, by simp [Grant.live?, hlive, Enrolment.answers?]⟩
  · rintro ⟨⟨purpose, handle⟩, hg, hanswers⟩
    cases hdisposed : handle.disposed with
    | true => simp [Grant.live?, hdisposed] at hanswers
    | false =>
        cases purpose with
        | listener channel l => simp [Grant.live?, hdisposed, Enrolment.answers?] at hanswers
        | observer id observer => simp [Grant.live?, hdisposed, Enrolment.answers?] at hanswers
        | command other found =>
            obtain ⟨rfl, rfl⟩ : other = name ∧ found = handler := by
              simpa [Grant.live?, hdisposed, Enrolment.answers?] using hanswers
            exact ⟨handle, hg, hdisposed⟩

/-- The handlers of the live handles for a name are those that the grants yield. -/
theorem held_answers (b : Ledger σ) (name : String) :
    b.held (Enrolment.answers? name) =
      b.grants.filterMap fun g => g.live?.bind (Enrolment.answers? name) :=
  List.filterMap_filterMap

/-- There is a command exactly if one live handle was given for it. -/
theorem contains_iff_of_answers (hanswers : Answers b.host b.live) :
    b.host.commands.contains name = true ↔ ∃! n, ∃ handler, b.Holds name n handler := by
  have hname := (b.held_answers name).symm.trans (hanswers name)
  cases hfind : b.host.commands.find? name with
  | none =>
      rw [hfind] at hname
      have hempty := List.filterMap_eq_nil_iff.1 hname
      refine iff_of_false (by simp [Table.contains, hfind]) ?_
      rintro ⟨n, ⟨handler, hholds⟩, -⟩
      obtain ⟨g, hg, hgives⟩ := Option.bind_eq_some_iff.1 (holds_iff.1 hholds)
      rw [hempty g (List.mem_of_getElem? hg)] at hgives
      cases hgives
  | some found =>
      rw [hfind] at hname
      obtain ⟨n, hn⟩ := exists_place_of_filterMap hname
      refine iff_of_true (by simp [Table.contains, hfind]) ⟨n, ⟨found, ?_⟩, ?_⟩
      · exact holds_iff.2 ((hn n found).2 ⟨rfl, rfl⟩)
      · rintro m ⟨handler, hholds⟩
        exact ((hn m handler).1 (holds_iff.1 hholds)).1

/-- The command of a live handle is the one that its name has. -/
theorem find?_of_answers (hanswers : Answers b.host b.live) {n : Nat} {handler : Handler}
    (hholds : b.Holds name n handler) : b.host.commands.find? name = some handler := by
  have hname := (b.held_answers name).symm.trans (hanswers name)
  obtain ⟨g, hg, hgives⟩ := Option.bind_eq_some_iff.1 (holds_iff.1 hholds)
  have hmem : handler ∈ (b.host.commands.find? name).toList := by
    rw [← hname]
    exact List.mem_filterMap.2 ⟨g, List.mem_of_getElem? hg, hgives⟩
  exact Option.mem_toList.1 hmem

theorem answers_run {h : Host σ} (hbare : h.Bare) (turns : List Turn) :
    Answers (run ⟨h, []⟩ turns).host (run ⟨h, []⟩ turns).live := by
  refine (sound_nil h).run_induction (fun _ _ _ _ _ => answers_of_moves) ?_ turns
  intro name
  rw [hbare.commands]
  rfl

/-- **Handles release what they were given for, once.**  On a host that starts without listeners and
commands, whatever is registered and disposed in whatever order: every emitter has the listeners of
the live handles, a name has a command exactly if one live handle was given for it, the command does
what that handle was given for, and disposing a handle again changes nothing. -/
theorem handles_release_their_own (client : Client σ) {h : Host σ} (hbare : h.Bare)
    (hunobserved : ∀ id c, h.collection? id = some c → c.emitter.listeners = [])
    (turns : List Turn) {b : Ledger σ} (hb : run ⟨h, []⟩ turns = b) :
    (∀ channel, Serves h turns (Enrolment.listens? channel) (b.host.channels.get channel)) ∧
      (∀ id c, h.collection? id = some c → ∃ c', b.host.collection? id = some c' ∧
        Serves h turns (Enrolment.observes? id) c'.emitter) ∧
      (∀ name, b.host.commands.contains name = true ↔ ∃! n, ∃ handler, b.Holds name n handler) ∧
      (∀ name n handler, b.Holds name n handler →
        HostM.execute client name b.host = handler.run client b.host) ∧
      ∀ n g, b.grants[n]? = some g → g.handle.disposed = true → b.step (.dispose n) = b := by
  subst hb
  have hanswers := answers_run hbare turns
  refine ⟨fun channel => ?_, fun id c hc => ?_, fun name => contains_iff_of_answers hanswers,
    fun name n handler hholds => ?_, fun n g hg => step_dispose_of_disposed hg⟩
  · exact ((channel.port σ).serves trivial (hbare.listeners channel) turns).2
  · have hnone : ((id.port σ).view h).listeners = [] := by
      simpa [CollectionId.port, hc] using hunobserved id c hc
    obtain ⟨⟨c', hc'⟩, hserves⟩ := (id.port σ).serves ⟨c, hc⟩ hnone turns
    refine ⟨c', hc', ?_⟩
    simpa [CollectionId.port, hc'] using hserves
  · exact HostM.execute_of_find? client (find?_of_answers hanswers hholds)

/-- A host with one collection, and nothing else. -/
def fresh : Host Unit :=
  { workspace := {}, collections := ⟨[⟨"edl", .empty, {}, false⟩]⟩, client := () }

/-- A listener subscribes twice and a command changes hands; the last two handles that are disposed
were disposed before. -/
def renewal : List Turn :=
  [.enrol (.listener .closed (.client "a")), .enrol (.listener .closed (.client "b")),
    .enrol (.listener .closed (.client "a")), .enrol (.observer ⟨0⟩ "c"),
    .enrol (.command "x" (.client 1)), .enrol (.command "x" (.client 2)), .dispose 2, .dispose 4,
    .enrol (.command "x" (.client 3)), .dispose 2, .dispose 4]

/-- Disposing an old handle leaves the new command alone.  The later of two equal listeners is
disposed and the earlier one goes, so that the order is not that of the live handles. -/
theorem handles_release_their_own_renewal :
    ∃ (client : Client Unit) (b : Ledger Unit), fresh.Bare ∧
      (∀ id c, fresh.collection? id = some c → c.emitter.listeners = []) ∧
      run ⟨fresh, []⟩ renewal = b ∧
      (b.host.channels.get .closed).listeners = [.client "b", .client "a"] ∧
      b.held (Enrolment.listens? .closed) = [.client "a", .client "b"] ∧
      Serves fresh renewal (Enrolment.listens? .closed) (b.host.channels.get .closed) ∧
      b.held (Enrolment.observes? ⟨0⟩) = ["c"] ∧
      (∃ c, b.host.collection? ⟨0⟩ = some c ∧
        Serves fresh renewal (Enrolment.observes? ⟨0⟩) c.emitter) ∧
      (∃! n, ∃ handler, b.Holds "x" n handler) ∧
      HostM.execute client "x" b.host = Handler.run client (.client 3) b.host ∧
      b.step (.dispose 4) = b := by
  have hbare : fresh.Bare := ⟨fun channel => by cases channel <;> rfl, fun _ => rfl⟩
  have hunobserved : ∀ id c, fresh.collection? id = some c → c.emitter.listeners = [] := by
    intro id c hc
    obtain rfl := List.mem_singleton.1 (List.mem_of_getElem? hc)
    rfl
  have hholds : (run ⟨fresh, []⟩ renewal).Holds "x" 5 (.client 3) := ⟨_, rfl, rfl⟩
  obtain ⟨hchannels, hcollections, hcommands, hexecute, hagain⟩ :=
    handles_release_their_own .idle hbare hunobserved renewal rfl
  exact ⟨_, run ⟨fresh, []⟩ renewal, hbare, hunobserved, rfl, by rfl, by rfl, hchannels .closed,
    by rfl, hcollections ⟨0⟩ _ rfl, (hcommands "x").1 (by rfl), hexecute "x" 5 (.client 3) hholds,
    hagain 4 _ (by rfl) (by rfl)⟩

end Ledger

end Edl

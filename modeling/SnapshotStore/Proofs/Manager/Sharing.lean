import Mathlib.Logic.Relation
import SnapshotStore.Manager
import SnapshotStore.Proofs.Store.Opening

/-! A manager that several use at once. A call that asks for the store of a name looks it
up among the open stores, which it shares with other readers. Where the name is not
found, the call waits until it has the stores for itself, looks the name up once more,
since another call may have opened the store in the meantime, and opens it only then.
Anything may happen between two of these steps, and between two requests of the
opening; what is open is nevertheless opened once. -/
namespace SnapshotStore

open Disk
open Program (Runs)

/-! ### What a program ends in -/

namespace Program

variable {α β : Type} {sort : α → Prop} {p : Program α}

/-- Whatever its requests are answered, and by whatever disk, the program ends in a value
of this sort. -/
def EndsIn (sort : α → Prop) : Program α → Prop
  | .done value => sort value
  | .ask _ next => ∀ answer, EndsIn sort (next answer)

theorem endsIn_pure {value : α} (h : sort value) : EndsIn sort (pure value) :=
  h

theorem endsIn_bind {sort : β → Prop} {p : Program α} {f : α → Program β}
    (h : ∀ value, EndsIn sort (f value)) : EndsIn sort (p >>= f) := by
  induction p with
  | done value => exact h value
  | ask request next ih => exact ih

end Program

open Program (EndsIn endsIn_pure endsIn_bind)

/-- What opening a store of this setup may come to: the store has the setup, and nothing
to save. -/
def Config.OpensAs (config : Config) (result : Except StoreError Store) : Prop :=
  ∀ s, result = .ok s → s.config = config ∧ s.isDirty = false

theorem Store.endsIn_open (config : Config) : EndsIn config.OpensAs (Store.open config) := by
  unfold Store.open
  cases config.check with
  | error fault => exact endsIn_pure nofun
  | ok _ =>
      refine endsIn_bind fun created => ?_
      cases created with
      | error fault => exact endsIn_pure nofun
      | ok _ =>
          refine endsIn_bind fun removed => ?_
          cases removed with
          | error fault => exact endsIn_pure nofun
          | ok _ =>
              refine endsIn_bind fun data => ?_
              cases data with
              | error error => exact endsIn_pure nofun
              | ok data =>
                  refine endsIn_pure fun s hStore => ?_
                  obtain rfl := Except.ok.inj hStore
                  exact ⟨rfl, rfl⟩

/-! ### Calls -/

/-- Where a call is that asks for the store of a name. The handle that it returns says
which of the stores that were opened it has been given. -/
inductive UseCall where
  | idle
  | called (name : String)
  | missed (name : String)
  | waiting (name : String)
  | entered (name : String)
  | opening (name : String) (rest : Program (Except StoreError Store))
  | opened (name : String) (handle : Nat)
  | leaving (name : String) (outcome : Except StoreError Nat)
  | returned (name : String) (outcome : Except StoreError Nat)

namespace UseCall

variable {call : UseCall} {config : Config} {handles handles' : KeyMap Nat}
  {names names' : List String}

/-- The call has the stores for itself. -/
def HoldsLock : UseCall → Prop
  | .entered _ | .opening _ _ | .opened _ _ | .leaving _ _ => True
  | _ => False

/-- The call has got a store that it opened itself, or returns one. -/
def Succeeded : UseCall → Prop
  | .opened _ _ | .leaving _ (.ok _) | .returned _ (.ok _) => True
  | _ => False

/-- A call comes to a store that is open under this name, or, where the name is none, to
the error that says so. -/
def Ends (handles : KeyMap Nat) (name : String) : Except StoreError Nat → Prop
  | .ok handle => handles.get? name = some handle
  | .error error => ∀ fault, Config.checkName name = .error fault → error = .config fault

/-- What a call may rely on, by the handles under the names of the open stores and the
names of all stores that were opened. -/
def Fits (config : Config) (handles : KeyMap Nat) (names : List String) : UseCall → Prop
  | .waiting name | .entered name => Config.checkName name = .ok ()
  | .opening name rest =>
    Config.checkName name = .ok () ∧ handles.get? name = none ∧ name ∉ names ∧
      rest.EndsIn (config.forStore name).OpensAs
  | .opened name handle => handles.get? name = none ∧ names[handle]? = some name
  | .leaving name outcome | .returned name outcome => Ends handles name outcome
  | _ => True

theorem Ends.mono {name : String} {outcome : Except StoreError Nat} (h : Ends handles name outcome)
    (hMore : ∀ name handle, handles.get? name = some handle → handles'.get? name = some handle) :
    Ends handles' name outcome := by
  cases outcome with
  | ok handle => exact hMore name handle h
  | error error => exact h

/-- Without the lock a call relies only on what stays. -/
theorem Fits.of_not_holdsLock (h : call.Fits config handles names) (hOutside : ¬ call.HoldsLock)
    (hMore : ∀ name handle, handles.get? name = some handle → handles'.get? name = some handle) :
    call.Fits config handles' names' := by
  cases call with
  | waiting name => exact h
  | returned name outcome => exact Ends.mono h hMore
  | idle => trivial
  | called name => trivial
  | missed name => trivial
  | _ => exact absurd trivial hOutside

end UseCall

/-! ### Managers in use -/

/-- A manager with its disk and the calls on it. All stores that were opened are kept in
order, each with the name for which it was; the handle of a store is its place among
them. -/
structure SharedManager (ι : Type) where
  config : Config
  handles : KeyMap Nat
  opened : List (String × Store)
  disk : Disk
  lock : Option ι
  calls : ι → UseCall

namespace SharedManager

variable {ι : Type} {m m' later : SharedManager ι} {i j : ι} {d e : Disk} {name : String}
  {handle : Nat} {call : UseCall}

/-- A manager without open stores, on which nothing was called. -/
def start (config : Config) (d : Disk) : SharedManager ι :=
  ⟨config, .empty, [], d, none, fun _ => .idle⟩

/-- The names for which stores were opened. -/
def openedNames (m : SharedManager ι) : List String :=
  m.opened.map Prod.fst

/-- The store of a handle, as it is now. -/
def storeAt (m : SharedManager ι) (handle : Nat) : Store :=
  (m.opened[handle]?.map Prod.snd).getD default

/-- The manager as it is seen by whoever reads it. -/
def manager (m : SharedManager ι) : Manager :=
  ⟨m.config, m.handles.mapValues fun _ handle => m.storeAt handle⟩

/-- What holds at every moment: one call at most has the stores for itself; a handle leads
to a store that was opened for its name; what was opened is open, or about to be; and no
name was opened twice. -/
structure Sound (m : SharedManager ι) : Prop where
  lock : ∀ i, (m.calls i).HoldsLock ↔ m.lock = some i
  linked : ∀ name handle, m.handles.get? name = some handle → m.openedNames[handle]? = some name
  kept : ∀ name ∈ m.openedNames, (∃ handle, m.handles.get? name = some handle) ∨
    ∃ i handle, m.calls i = .opened name handle
  nodup : m.openedNames.Nodup
  setup : ∀ entry ∈ m.opened,
    Config.checkName entry.1 = .ok () ∧ entry.2.config = m.config.forStore entry.1
  calls : ∀ i, (m.calls i).Fits m.config m.handles m.openedNames

theorem sound_start (config : Config) (d : Disk) : Sound (start config d : SharedManager ι) :=
  ⟨fun _ => ⟨nofun, nofun⟩, fun _ _ => nofun, fun _ => nofun, .nil, fun _ => nofun,
    fun _ => trivial⟩

theorem Sound.eq_of_holdsLock (h : Sound m) (hi : (m.calls i).HoldsLock)
    (hj : (m.calls j).HoldsLock) : j = i :=
  Option.some.inj (((h.lock j).mp hj).symm.trans ((h.lock i).mp hi))

/-- The name of a store that is looked up in vain while no other call has the stores was
never opened. -/
theorem Sound.not_mem_openedNames (h : Sound m) (hHolds : (m.calls i).HoldsLock)
    (hNot : ∀ handle, m.calls i ≠ .opened name handle) (hMissing : m.handles.get? name = none) :
    name ∉ m.openedNames := by
  intro hName
  rcases h.kept name hName with ⟨handle, hFound⟩ | ⟨j, handle, hCall⟩
  · rw [hMissing] at hFound
    cases hFound
  · obtain rfl := h.eq_of_holdsLock hHolds (hCall ▸ trivial : (m.calls j).HoldsLock)
    exact hNot handle hCall

/-! ### What is seen -/

theorem contains_manager (m : SharedManager ι) (name : String) :
    m.manager.stores.contains name = (m.handles.get? name).isSome := by
  rw [KeyMap.contains, manager, KeyMap.get?_mapValues, Option.isSome_map]

theorem manager_congr (hConfig : later.config = m.config) (hHandles : later.handles = m.handles)
    (hOpened : later.opened = m.opened) : later.manager = m.manager := by
  simp [manager, storeAt, hConfig, hHandles, hOpened]

/-- A store that was opened and is put in place is seen under its name. -/
theorem manager_insert (hSound : Sound m) (hLater : later.config = m.config) {s : Store}
    (hName : s.name = name) (hHandles : later.handles = m.handles.insert name m.opened.length)
    (hOpened : later.opened = m.opened ++ [(name, s)]) : later.manager = m.manager.put s := by
  have hStores : later.manager.stores = (m.manager.put s).stores := by
    refine KeyMap.ext_get? fun other => ?_
    simp only [manager, Manager.put, KeyMap.get?_mapValues, hHandles, KeyMap.get?_insert, hName]
    split_ifs with hSame
    · simp [storeAt, hOpened]
    · cases hFound : m.handles.get? other with
      | none => rfl
      | some handle =>
          have hLess : handle < m.opened.length := by
            simpa [openedNames] using
              (List.getElem?_eq_some_iff.mp (hSound.linked other handle hFound)).1
          simp [storeAt, hOpened, List.getElem?_append_left hLess]
  cases hManager : later.manager
  simp_all [manager, Manager.put]

theorem names_manager (m : SharedManager ι) : m.manager.names = m.handles.keys := by
  simp [manager, Manager.names, KeyMap.keys, KeyMap.mapValues]

/-- While no call has the stores for itself, the open stores are all that were opened. -/
theorem mem_names_iff (h : Sound m) (hFree : m.lock = none) :
    name ∈ m.manager.names ↔ name ∈ m.openedNames := by
  rw [names_manager, KeyMap.mem_keys_iff_exists]
  constructor
  · rintro ⟨handle, hFound⟩
    exact List.mem_of_getElem? (h.linked name handle hFound)
  · intro hName
    refine (h.kept name hName).resolve_right ?_
    rintro ⟨i, handle, hCall⟩
    have hHolds := (h.lock i).mp (hCall ▸ trivial)
    rw [hFree] at hHolds
    cases hHolds

/-! ### Steps -/

variable [DecidableEq ι]

/-- The same with one call in another place. -/
def move (m : SharedManager ι) (i : ι) (call : UseCall) : SharedManager ι :=
  { m with calls := Function.update m.calls i call }

theorem calls_move_self (m : SharedManager ι) (i : ι) (call : UseCall) :
    (m.move i call).calls i = call := by
  simp [move]

theorem calls_move_of_ne (h : j ≠ i) (m : SharedManager ι) (call : UseCall) :
    (m.move i call).calls j = m.calls j := by
  simp [move, h]

/-- One step of one call. Nothing is looked up while another call has the stores for
itself. Opening is one step for each of its requests. -/
inductive UseStep (i : ι) (m : SharedManager ι) : SharedManager ι → Prop where
  | call (name : String) (hCall : m.calls i = .idle) : UseStep i m (m.move i (.called name))
  | find {name : String} {handle : Nat} (hCall : m.calls i = .called name) (hFree : m.lock = none)
      (hFound : m.handles.get? name = some handle) :
      UseStep i m (m.move i (.returned name (.ok handle)))
  | miss {name : String} (hCall : m.calls i = .called name) (hFree : m.lock = none)
      (hMissing : m.handles.get? name = none) : UseStep i m (m.move i (.missed name))
  | refuse {name : String} {fault : Config.Fault} (hCall : m.calls i = .missed name)
      (hName : Config.checkName name = .error fault) :
      UseStep i m (m.move i (.returned name (.error (.config fault))))
  | accept {name : String} (hCall : m.calls i = .missed name)
      (hName : Config.checkName name = .ok ()) : UseStep i m (m.move i (.waiting name))
  | enter {name : String} (hCall : m.calls i = .waiting name) (hFree : m.lock = none) :
      UseStep i m ({ m with lock := some i }.move i (.entered name))
  | findAgain {name : String} {handle : Nat} (hCall : m.calls i = .entered name)
      (hFound : m.handles.get? name = some handle) :
      UseStep i m (m.move i (.leaving name (.ok handle)))
  | begin {name : String} (hCall : m.calls i = .entered name)
      (hMissing : m.handles.get? name = none) :
      UseStep i m (m.move i (.opening name (Store.open (m.config.forStore name))))
  | request {name : String} {request : Request}
      {next : Except Disk.Fault request.Answer → Program (Except StoreError Store)}
      {answer : Except Disk.Fault request.Answer} {e : Disk}
      (hCall : m.calls i = .opening name (.ask request next))
      (hAnswer : m.disk.Responds request answer e) :
      UseStep i m ({ m with disk := e }.move i (.opening name (next answer)))
  | fail {name : String} {error : StoreError}
      (hCall : m.calls i = .opening name (.done (.error error))) :
      UseStep i m (m.move i (.leaving name (.error error)))
  | succeed {name : String} {s : Store} (hCall : m.calls i = .opening name (.done (.ok s))) :
      UseStep i m ({ m with opened := m.opened ++ [(name, s)] }.move i
        (.opened name m.opened.length))
  | insert {name : String} {handle : Nat} (hCall : m.calls i = .opened name handle) :
      UseStep i m ({ m with handles := m.handles.insert name handle }.move i
        (.leaving name (.ok handle)))
  | leave {name : String} {outcome : Except StoreError Nat}
      (hCall : m.calls i = .leaving name outcome) :
      UseStep i m ({ m with lock := none }.move i (.returned name outcome))

/-- One step of a call, anything that is done with a store that was opened, and whatever
else happens on the disk. -/
inductive Step (m : SharedManager ι) : SharedManager ι → Prop where
  | use {m' : SharedManager ι} (i : ι) (h : UseStep i m m') : Step m m'
  | work {handle : Nat} {name : String} {s s' : Store}
      (hStore : m.opened[handle]? = some (name, s)) (hConfig : s'.config = s.config) :
      Step m { m with opened := m.opened.set handle (name, s') }
  | elsewhere (e : Disk) : Step m { m with disk := e }

/-- Any number of steps in any order. -/
def Steps : SharedManager ι → SharedManager ι → Prop :=
  Relation.ReflTransGen Step

/-! ### What holds at every moment -/

/-- A call that goes on does not disturb the others, as long as it does not take or let go
what they hold. -/
theorem Sound.move (h : Sound m) {lock : Option ι} (hNot : ∀ name handle,
    m.calls i ≠ .opened name handle) (hLock : call.HoldsLock ↔ lock = some i)
    (hOthers : ∀ j ≠ i, (m.calls j).HoldsLock ↔ lock = some j)
    (hFits : call.Fits m.config m.handles m.openedNames) :
    Sound ({ m with lock := lock, disk := e }.move i call) := by
  refine ⟨?_, h.linked, fun name hName => ?_, h.nodup, h.setup, ?_⟩
  · exact (Function.forall_update_iff m.calls fun j call => call.HoldsLock ↔ lock = some j).mpr
      ⟨hLock, hOthers⟩
  · refine (h.kept name hName).imp_right fun ⟨j, handle, hCall⟩ => ⟨j, handle, ?_⟩
    have hOther : j ≠ i := by
      rintro rfl
      exact hNot name handle hCall
    rw [calls_move_of_ne hOther]
    exact hCall
  · exact (Function.forall_update_iff m.calls fun _ call =>
      call.Fits m.config m.handles m.openedNames).mpr ⟨hFits, fun j _ => h.calls j⟩

/-- A call that keeps what it holds. -/
theorem Sound.move_same (h : Sound m) (hNot : ∀ name handle, m.calls i ≠ .opened name handle)
    (hSame : call.HoldsLock ↔ (m.calls i).HoldsLock)
    (hFits : call.Fits m.config m.handles m.openedNames) :
    Sound ({ m with disk := e }.move i call) :=
  h.move hNot (hSame.trans (h.lock i)) (fun j _ => h.lock j) hFits

theorem openedNames_succeed (m : SharedManager ι) (name : String) (s : Store) :
    ({ m with opened := m.opened ++ [(name, s)] }.move i call).openedNames =
      m.openedNames ++ [name] := by
  simp [openedNames, SharedManager.move]

theorem Sound.succeed (h : Sound m) {s : Store}
    (hCall : m.calls i = .opening name (.done (.ok s))) :
    Sound ({ m with opened := m.opened ++ [(name, s)] }.move i
      (.opened name m.opened.length)) := by
  have hHolds : (m.calls i).HoldsLock := hCall ▸ trivial
  obtain ⟨hName, hMissing, hNew, hEnds⟩ : (UseCall.opening name (.done (.ok s))).Fits m.config
      m.handles m.openedNames := hCall ▸ h.calls i
  refine ⟨?_, fun other handle hHandle => ?_, fun other hOther => ?_, ?_, fun entry hEntry => ?_,
    fun j => ?_⟩
  · exact (Function.forall_update_iff m.calls fun j call => call.HoldsLock ↔ m.lock = some j).mpr
      ⟨⟨fun _ => (h.lock i).mp hHolds, fun _ => trivial⟩, fun j _ => h.lock j⟩
  · have hBefore := h.linked other handle hHandle
    rw [openedNames_succeed, List.getElem?_append_left (List.getElem?_eq_some_iff.mp hBefore).1]
    exact hBefore
  · rw [openedNames_succeed, List.mem_append, List.mem_singleton] at hOther
    rcases hOther with hBefore | rfl
    · refine Or.inl ((h.kept other hBefore).resolve_right fun ⟨j, handle, hOpening⟩ => ?_)
      obtain rfl := h.eq_of_holdsLock hHolds (hOpening ▸ trivial : (m.calls j).HoldsLock)
      rw [hCall] at hOpening
      cases hOpening
    · exact Or.inr ⟨i, _, calls_move_self _ i _⟩
  · rw [openedNames_succeed, List.nodup_append]
    refine ⟨h.nodup, by simp, fun other hOther last hLast hSame => hNew ?_⟩
    rwa [← List.mem_singleton.mp hLast, ← hSame]
  · rcases List.mem_append.mp hEntry with hBefore | hLast
    · exact h.setup entry hBefore
    · obtain rfl := List.mem_singleton.mp hLast
      exact ⟨hName, (hEnds s rfl).1⟩
  · rw [openedNames_succeed]
    revert j
    refine (Function.forall_update_iff m.calls fun _ call =>
      call.Fits m.config m.handles (m.openedNames ++ [name])).mpr
      ⟨⟨hMissing, ?_⟩, fun j hOther => (h.calls j).of_not_holdsLock ?_ fun _ _ => id⟩
    · rw [show m.opened.length = m.openedNames.length by simp [openedNames]]
      exact List.getElem?_concat_length
    · exact fun hHolds' => hOther (h.eq_of_holdsLock hHolds hHolds')

theorem Sound.insert (h : Sound m) (hCall : m.calls i = .opened name handle) :
    Sound ({ m with handles := m.handles.insert name handle }.move i
      (.leaving name (.ok handle))) := by
  have hHolds : (m.calls i).HoldsLock := hCall ▸ trivial
  obtain ⟨hMissing, hOpened⟩ : (UseCall.opened name handle).Fits m.config m.handles
      m.openedNames := hCall ▸ h.calls i
  have hMore : ∀ other found, m.handles.get? other = some found →
      (m.handles.insert name handle).get? other = some found := fun other found hFound => by
    rw [KeyMap.get?_insert, if_neg]
    · exact hFound
    · rintro rfl
      rw [hMissing] at hFound
      cases hFound
  have hSelf : (m.handles.insert name handle).get? name = some handle := by
    rw [KeyMap.get?_insert, if_pos rfl]
  refine ⟨?_, fun other found hFound => ?_, fun other hOther => Or.inl ?_, h.nodup, h.setup, ?_⟩
  · exact (Function.forall_update_iff m.calls fun j call => call.HoldsLock ↔ m.lock = some j).mpr
      ⟨⟨fun _ => (h.lock i).mp hHolds, fun _ => trivial⟩, fun j _ => h.lock j⟩
  · change (m.handles.insert name handle).get? other = some found at hFound
    rw [KeyMap.get?_insert] at hFound
    split_ifs at hFound with hSame
    · rw [hSame, ← Option.some.inj hFound]
      exact hOpened
    · exact h.linked other found hFound
  · rcases h.kept other hOther with ⟨found, hFound⟩ | ⟨j, found, hOpening⟩
    · exact ⟨found, hMore other found hFound⟩
    · obtain rfl := h.eq_of_holdsLock hHolds (hOpening ▸ trivial : (m.calls j).HoldsLock)
      rw [hCall] at hOpening
      obtain ⟨rfl, rfl⟩ := UseCall.opened.inj hOpening
      exact ⟨handle, hSelf⟩
  · refine (Function.forall_update_iff m.calls fun _ call =>
      call.Fits m.config (m.handles.insert name handle) m.openedNames).mpr
      ⟨hSelf, fun j hOther => (h.calls j).of_not_holdsLock ?_ hMore⟩
    exact fun hHolds' => hOther (h.eq_of_holdsLock hHolds hHolds')

theorem UseStep.sound (h : UseStep i m m') (hSound : Sound m) : Sound m' := by
  have hFits := hSound.calls i
  cases h with
  | call name hCall => exact hSound.move_same (by simp [hCall]) (by rw [hCall]; rfl) trivial
  | find hCall hFree hFound =>
      exact hSound.move_same (by simp [hCall]) (by rw [hCall]; rfl) hFound
  | miss hCall hFree hMissing =>
      exact hSound.move_same (by simp [hCall]) (by rw [hCall]; rfl) trivial
  | @refuse name fault hCall hName =>
      refine hSound.move_same (by simp [hCall]) (by rw [hCall]; rfl) fun other hOther => ?_
      rw [hName] at hOther
      rw [Except.error.inj hOther]
  | accept hCall hName => exact hSound.move_same (by simp [hCall]) (by rw [hCall]; rfl) hName
  | enter hCall hFree =>
      rw [hCall] at hFits
      refine hSound.move (by simp [hCall]) ⟨fun _ => rfl, fun _ => trivial⟩ (fun j hj => ?_) hFits
      rw [hSound.lock j, hFree]
      simp [hj.symm]
  | findAgain hCall hFound => exact hSound.move_same (by simp [hCall]) (by rw [hCall]; rfl) hFound
  | @begin name hCall hMissing =>
      rw [hCall] at hFits
      have hHolds : (m.calls i).HoldsLock := hCall ▸ trivial
      have hNew := hSound.not_mem_openedNames hHolds (by simp [hCall]) hMissing
      exact hSound.move_same (by simp [hCall]) (by rw [hCall]; rfl)
        ⟨hFits, hMissing, hNew, Store.endsIn_open _⟩
  | request hCall hAnswer =>
      rw [hCall] at hFits
      obtain ⟨hName, hMissing, hNew, hEnds⟩ := hFits
      exact hSound.move_same (by simp [hCall]) (by rw [hCall]; rfl)
        ⟨hName, hMissing, hNew, hEnds _⟩
  | @fail name error hCall =>
      rw [hCall] at hFits
      refine hSound.move_same (by simp [hCall]) (by rw [hCall]; rfl) fun fault hFault => ?_
      rw [hFits.1] at hFault
      cases hFault
  | succeed hCall => exact hSound.succeed hCall
  | insert hCall => exact hSound.insert hCall
  | leave hCall =>
      rw [hCall] at hFits
      refine hSound.move (by simp [hCall]) ⟨nofun, nofun⟩ (fun j hj => ?_) hFits
      refine ⟨fun hHolds => absurd (hSound.eq_of_holdsLock (hCall ▸ trivial) hHolds) hj, nofun⟩

theorem Step.sound (h : Step m m') (hSound : Sound m) : Sound m' := by
  cases h with
  | use i hUse => exact hUse.sound hSound
  | @work handle name s s' hStore hConfig =>
      have hNames : SharedManager.openedNames { m with opened := m.opened.set handle (name, s') } =
          m.openedNames := by
        have hPlace : m.openedNames[handle]? = some name := by simp [openedNames, hStore]
        obtain ⟨hLess, hAt⟩ := List.getElem?_eq_some_iff.mp hPlace
        rw [← hAt]
        exact List.map_set.trans (List.set_getElem_self hLess)
      refine ⟨hSound.lock, hNames ▸ hSound.linked, hNames ▸ hSound.kept, hNames ▸ hSound.nodup,
        fun entry hEntry => ?_, hNames ▸ hSound.calls⟩
      rcases List.mem_or_eq_of_mem_set hEntry with hBefore | rfl
      · exact hSound.setup entry hBefore
      · obtain ⟨hName, hSetup⟩ := hSound.setup _ (List.mem_of_getElem? hStore)
        exact ⟨hName, hConfig.trans hSetup⟩
  | elsewhere e =>
      exact ⟨hSound.lock, hSound.linked, hSound.kept, hSound.nodup, hSound.setup, hSound.calls⟩

theorem Steps.sound (h : Steps m later) (hSound : Sound m) : Sound later := by
  induction h with
  | refl => exact hSound
  | tail steps last ih => exact last.sound ih

/-! ### Calls that fail -/

theorem UseStep.calls_of_ne (h : UseStep i m m') (hOther : j ≠ i) : m'.calls j = m.calls j := by
  cases h <;> exact calls_move_of_ne hOther _ _

theorem UseStep.succeeded (h : UseStep i m m') (hBefore : (m.calls i).Succeeded) :
    (m'.calls i).Succeeded := by
  cases h with
  | insert hCall =>
      rw [calls_move_self]
      trivial
  | @leave name outcome hCall =>
      rw [hCall] at hBefore
      rw [calls_move_self]
      cases outcome with
      | ok handle => trivial
      | error error => cases hBefore
  | call name hCall | find hCall | miss hCall | refuse hCall | accept hCall | enter hCall
  | findAgain hCall | begin hCall | request hCall | fail hCall | succeed hCall =>
      rw [hCall] at hBefore
      cases hBefore

theorem Step.succeeded (h : Step m m') (hBefore : (m.calls i).Succeeded) :
    (m'.calls i).Succeeded := by
  cases h with
  | use j hUse =>
      by_cases hSame : i = j
      · subst hSame
        exact hUse.succeeded hBefore
      · rwa [hUse.calls_of_ne hSame]
  | work hStore hConfig => exact hBefore
  | elsewhere e => exact hBefore

theorem Steps.succeeded (h : Steps m later) (hBefore : (m.calls i).Succeeded) :
    (later.calls i).Succeeded := by
  induction h with
  | refl => exact hBefore
  | tail steps last ih => exact last.succeeded ih

/-- No step of a call that fails in the end opens a store, or touches those that are
open. -/
theorem UseStep.kept_of_error {error : StoreError} (h : UseStep i m m') (hRest : Steps m' later)
    (hFails : later.calls i = .returned name (.error error)) :
    m'.handles = m.handles ∧ m'.opened = m.opened := by
  have hNever : ¬ (m'.calls i).Succeeded := fun hBefore => by
    have hLast := hRest.succeeded hBefore
    rw [hFails] at hLast
    exact hLast
  cases h with
  | succeed hCall => exact absurd (by rw [calls_move_self]; trivial) hNever
  | insert hCall => exact absurd (by rw [calls_move_self]; trivial) hNever
  | _ => exact ⟨rfl, rfl⟩

/-! ### Calls that go on -/

/-- The call can go on by itself until it has let the stores go. -/
def CanLeave (i : ι) (m : SharedManager ι) : Prop :=
  ∃ later, Steps m later ∧ later.lock = none ∧ ∀ j ≠ i, later.calls j = m.calls j

theorem CanLeave.of_step (h : UseStep i m m') (hLeave : CanLeave i m') : CanLeave i m := by
  obtain ⟨later, hSteps, hFree, hOthers⟩ := hLeave
  exact ⟨later, .head (.use i h) hSteps, hFree, fun j hj =>
    (hOthers j hj).trans (h.calls_of_ne hj)⟩

theorem canLeave_of_leaving {outcome : Except StoreError Nat}
    (hCall : m.calls i = .leaving name outcome) : CanLeave i m :=
  ⟨_, .single (.use i (.leave hCall)), rfl, fun _ hj => calls_move_of_ne hj _ _⟩

theorem canLeave_of_opening {rest : Program (Except StoreError Store)}
    (hCall : m.calls i = .opening name rest) : CanLeave i m := by
  induction rest generalizing m with
  | done result =>
      cases result with
      | error error => exact .of_step (.fail hCall) (canLeave_of_leaving (calls_move_self _ i _))
      | ok s =>
          exact .of_step (.succeed hCall) (.of_step (.insert (calls_move_self _ i _))
            (canLeave_of_leaving (calls_move_self _ i _)))
  | ask request next ih =>
      exact .of_step (.request hCall (.answered 0 rfl)) (ih _ (calls_move_self _ i _))

/-- Nobody waits for good: whoever has the stores can let them go. -/
theorem exists_steps_unlocked (h : Sound m) : ∃ later, Steps m later ∧ later.lock = none ∧
    ∀ j, m.lock ≠ some j → later.calls j = m.calls j := by
  cases hLock : m.lock with
  | none => exact ⟨m, .refl, hLock, fun _ _ => rfl⟩
  | some i =>
      suffices hLeave : CanLeave i m by
        obtain ⟨later, hSteps, hFree, hOthers⟩ := hLeave
        exact ⟨later, hSteps, hFree, fun j hj => hOthers j fun hSame => hj (hSame ▸ rfl)⟩
      have hHolds := (h.lock i).mpr hLock
      cases hCall : m.calls i with
      | entered name =>
          cases hFound : m.handles.get? name with
          | none =>
              exact .of_step (.begin hCall hFound) (canLeave_of_opening (calls_move_self _ i _))
          | some handle =>
              exact .of_step (.findAgain hCall hFound)
                (canLeave_of_leaving (calls_move_self _ i _))
      | opening name rest => exact canLeave_of_opening hCall
      | opened name handle =>
          exact .of_step (.insert hCall) (canLeave_of_leaving (calls_move_self _ i _))
      | leaving name outcome => exact canLeave_of_leaving hCall
      | _ =>
          rw [hCall] at hHolds
          cases hHolds

/-- An opening that nothing comes between. -/
theorem steps_of_runs {rest : Program (Except StoreError Store)} {trace : List Event}
    {result : Except StoreError Store} (hCall : m.calls i = .opening name rest)
    (h : Runs rest m.disk trace result e) : ∃ later, Steps m later ∧
      later.calls i = .opening name (.done result) ∧ later.disk = e ∧ later.config = m.config ∧
      later.handles = m.handles ∧ later.opened = m.opened ∧
      ∀ j ≠ i, later.calls j = m.calls j := by
  generalize hDisk : m.disk = d at h
  induction h generalizing m with
  | done result d => exact ⟨m, .refl, hCall, hDisk, rfl, rfl, rfl, fun _ _ => rfl⟩
  | ask first rest ih =>
      subst hDisk
      obtain ⟨later, hSteps, hDone, hEnd, hConfig, hHandles, hOpened, hOthers⟩ :=
        ih (calls_move_self { m with disk := _ } i _) rfl
      exact ⟨later, .head (.use i (.request hCall first)) hSteps, hDone, hEnd, hConfig, hHandles,
        hOpened, fun j hj => (hOthers j hj).trans (calls_move_of_ne hj _ _)⟩

/-- A call for the store of a name that is not open comes to open it, if nobody else has
the stores. -/
theorem steps_to_opening (hCall : m.calls i = .idle) (hFree : m.lock = none)
    (hMissing : m.handles.get? name = none) (hName : Config.checkName name = .ok ()) :
    ∃ middle, Steps m middle ∧
      middle.calls i = .opening name (Store.open (m.config.forStore name)) ∧
      middle.disk = m.disk ∧ middle.config = m.config ∧ middle.handles = m.handles ∧
      middle.opened = m.opened := by
  have hCalled : Steps m (m.move i (.called name)) := .single (.use i (.call name hCall))
  have hMissed := hCalled.tail (.use i (.miss (calls_move_self m i _) hFree hMissing))
  have hWaiting := hMissed.tail (.use i (.accept (calls_move_self _ i _) hName))
  have hEntered := hWaiting.tail (.use i (.enter (calls_move_self _ i _) hFree))
  have hBegun := hEntered.tail (.use i (.begin (calls_move_self _ i _) hMissing))
  exact ⟨_, hBegun, calls_move_self _ i _, rfl, rfl, rfl, rfl⟩

/-- A call that nothing comes between does what having the store of the name open does. -/
theorem steps_of_use {trace : List Event} {outcome : Except StoreError Unit} {after : Manager}
    (hSound : Sound m) (hCall : m.calls i = .idle) (hFree : m.lock = none)
    (h : Runs (m.manager.use name) m.disk trace (outcome, after) e) :
    ∃ later result, Steps m later ∧ later.calls i = .returned name result ∧
      result.map (fun _ => ()) = outcome ∧ later.manager = after ∧ later.disk = e ∧
      later.lock = none := by
  have hCalled : Steps m (m.move i (.called name)) := .single (.use i (.call name hCall))
  unfold Manager.use at h
  rw [contains_manager] at h
  cases hFound : m.handles.get? name with
  | some handle =>
      rw [hFound] at h
      obtain ⟨-, hResult, rfl⟩ := Runs.pure_inv h
      obtain ⟨rfl, rfl⟩ := Prod.mk.inj hResult
      have hReturned := hCalled.tail (.use i (.find (calls_move_self m i _) hFree hFound))
      exact ⟨_, _, hReturned, calls_move_self _ i _, rfl, rfl, rfl, hFree⟩
  | none =>
      have hMissed := hCalled.tail (.use i (.miss (calls_move_self m i _) hFree hFound))
      rw [hFound] at h
      cases hName : Config.checkName name with
      | error fault =>
          rw [hName] at h
          obtain ⟨-, hResult, rfl⟩ := Runs.pure_inv h
          obtain ⟨rfl, rfl⟩ := Prod.mk.inj hResult
          have hReturned := hMissed.tail (.use i (.refuse (calls_move_self _ i _) hName))
          exact ⟨_, _, hReturned, calls_move_self _ i _, rfl, rfl, rfl, hFree⟩
      | ok _ =>
          rw [hName] at h
          obtain ⟨middle, hBegun, hOpening, hDisk, hConfig, hHandles, hOpened⟩ :=
            steps_to_opening hCall hFree hFound hName
          have hRegister : Runs (m.manager.register name) m.disk trace (outcome, after) e := h
          unfold Manager.register at hRegister
          rw [contains_manager, hFound] at hRegister
          simp only [Option.isSome_none, Bool.false_eq_true, if_false] at hRegister
          obtain ⟨_, _, result, c, -, hOpen, hReturn⟩ := hRegister.bind_inv
          rw [← hDisk] at hOpen
          obtain ⟨later, hSteps, hDone, rfl, hConfig', hHandles', hOpened', -⟩ :=
            steps_of_runs hOpening hOpen
          have hEnded := hBegun.trans hSteps
          rw [hConfig] at hConfig'
          rw [hHandles] at hHandles'
          rw [hOpened] at hOpened'
          cases result with
          | error error =>
              obtain ⟨-, hResult, rfl⟩ := hReturn.pure_inv
              obtain ⟨rfl, rfl⟩ := Prod.mk.inj hResult
              have hFailed := hEnded.tail (.use i (.fail hDone))
              have hReturned := hFailed.tail (.use i (.leave (calls_move_self _ i _)))
              refine ⟨_, _, hReturned, calls_move_self _ i _, rfl, ?_, rfl, rfl⟩
              exact manager_congr hConfig' hHandles' hOpened'
          | ok s =>
              have hStore := (Store.runs_open_ok hOpen).2.2.1
              have hSetup : s.name = name := by
                rw [hStore]
                rfl
              obtain ⟨-, hResult, rfl⟩ := hReturn.pure_inv
              obtain ⟨rfl, rfl⟩ := Prod.mk.inj hResult
              have hSucceeded := hEnded.tail (.use i (.succeed hDone))
              have hInserted := hSucceeded.tail (.use i (.insert (calls_move_self _ i _)))
              have hReturned := hInserted.tail (.use i (.leave (calls_move_self _ i _)))
              refine ⟨_, _, hReturned, calls_move_self _ i _, rfl, ?_, rfl, rfl⟩
              refine manager_insert hSound ?_ hSetup ?_ ?_
              · exact hConfig'
              · rw [← hHandles', ← hOpened']
                rfl
              · rw [← hOpened']
                rfl

theorem Steps.config_eq (h : Steps m later) : later.config = m.config := by
  induction h with
  | refl => rfl
  | tail steps last ih =>
      refine Eq.trans ?_ ih
      cases last with
      | use i hUse => cases hUse <;> rfl
      | _ => rfl

/-- Any number of calls for any names, with their steps in any order, on a manager without
open stores. All calls that return a store for one name return the same one, which is the
one that is open under this name; and no store of a name is opened twice. A call that
fails opens nothing and touches nothing that is open; it lets the stores go, as everybody
who has them can, and a later call does what having the store open does when nothing else
happens. What is no name is never opened, and the call says so. The names of the open
stores are listed in order and once each, and while no call has the stores for itself
they are the names of all stores that were opened. -/
theorem one_store_per_name {config : Config} (hSteps : Steps (start config d) m) :
    (∀ i j name a b, m.calls i = .returned name (.ok a) → m.calls j = .returned name (.ok b) →
      a = b) ∧
    (∀ i name handle, m.calls i = .returned name (.ok handle) → ∃ s,
      m.opened[handle]? = some (name, s) ∧ s.config = config.forStore name ∧
      m.manager.stores.get? name = some s) ∧
    m.openedNames.Nodup ∧
    (∀ i m' later name error, UseStep i m m' → Steps m' later →
      later.calls i = .returned name (.error error) →
      m'.handles = m.handles ∧ m'.opened = m.opened) ∧
    (∀ i name outcome, m.calls i = .returned name outcome → m.lock ≠ some i) ∧
    (∃ later, Steps m later ∧ later.lock = none ∧
      ∀ i, m.lock ≠ some i → later.calls i = m.calls i) ∧
    (∀ i name trace outcome after e, m.calls i = .idle → m.lock = none →
      Runs (m.manager.use name) m.disk trace (outcome, after) e →
      ∃ later result, Steps m later ∧ later.calls i = .returned name result ∧
        result.map (fun _ => ()) = outcome ∧ later.manager = after ∧ later.disk = e ∧
        later.lock = none) ∧
    (∀ i name fault, Config.checkName name = .error fault →
      (∀ rest, m.calls i ≠ .opening name rest) ∧ name ∉ m.openedNames ∧
      ∀ outcome, m.calls i = .returned name outcome → outcome = .error (.config fault)) ∧
    m.manager.names.Pairwise (· < ·) ∧
    (m.lock = none → ∀ name, name ∈ m.manager.names ↔ name ∈ m.openedNames) := by
  have hSound := hSteps.sound (sound_start config d)
  have hFound : ∀ i name handle, m.calls i = .returned name (.ok handle) →
      m.handles.get? name = some handle := fun i name handle hCall => by
    have hFits := hSound.calls i
    rw [hCall] at hFits
    exact hFits
  refine ⟨fun i j name a b ha hb => ?_, fun i name handle hCall => ?_, hSound.nodup,
    fun i m' later name error hStep hRest hFails => hStep.kept_of_error hRest hFails,
    fun i name outcome hCall hLock => ?_, exists_steps_unlocked hSound,
    fun i name trace outcome after e hCall hFree hRuns => steps_of_use hSound hCall hFree hRuns,
    fun i name fault hName => ⟨fun rest hCall => ?_, fun hOpened => ?_, fun outcome hCall => ?_⟩,
    m.manager.stores.increasing_keys, fun hFree name => mem_names_iff hSound hFree⟩
  · exact Option.some.inj ((hFound i name a ha).symm.trans (hFound j name b hb))
  · have hHandle := hFound i name handle hCall
    obtain ⟨⟨opened, s⟩, hAt, rfl⟩ : ∃ entry, m.opened[handle]? = some entry ∧ entry.1 = name := by
      simpa [openedNames] using hSound.linked name handle hHandle
    refine ⟨s, hAt, ?_, ?_⟩
    · rw [(hSound.setup _ (List.mem_of_getElem? hAt)).2, hSteps.config_eq]
      rfl
    · simp [manager, KeyMap.get?_mapValues, hHandle, storeAt, hAt]
  · have hHolds := (hSound.lock i).mpr hLock
    rw [hCall] at hHolds
    exact hHolds
  · have hFits := hSound.calls i
    rw [hCall] at hFits
    rw [hFits.1] at hName
    cases hName
  · obtain ⟨entry, hEntry, rfl⟩ := List.mem_map.mp hOpened
    rw [(hSound.setup entry hEntry).1] at hName
    cases hName
  · cases outcome with
    | ok handle =>
        have hOpened := hSound.linked name handle (hFound i name handle hCall)
        obtain ⟨entry, hEntry, rfl⟩ := List.mem_map.mp (List.mem_of_getElem? hOpened)
        rw [(hSound.setup entry hEntry).1] at hName
        cases hName
    | error error =>
        have hFits := hSound.calls i
        rw [hCall] at hFits
        rw [hFits fault hName]

/-- Two calls look for store `s` before it is open. The first one opens it, the second one
finds it. -/
theorem one_store_per_name_twice : ∃ m : SharedManager Bool,
    Steps (start Store.localConfig .empty) m ∧ m.calls true = .returned "s" (.ok 0) ∧
    m.calls false = .returned "s" (.ok 0) ∧ m.openedNames = ["s"] ∧ "s" ∈ m.manager.names ∧
    m.manager.stores.get? "s" = some (Store.opened Store.localConfig .empty) := by
  have hName : Config.checkName "s" = .ok () := by decide
  have hOpen : (Store.open (Store.localConfig.forStore "s")).run 0 .empty =
      (.ok (Store.opened Store.localConfig .empty), .empty) := rfl
  obtain ⟨trace, hOpened⟩ := Program.runs_of_run hOpen
  have hFirst : Steps (start Store.localConfig .empty : SharedManager Bool) _ :=
    .single (.use true (.call "s" rfl))
  have hSecond := hFirst.tail (.use false (.call "s" rfl))
  have hFirst := hSecond.tail (.use true (.miss rfl rfl rfl))
  have hSecond := hFirst.tail (.use false (.miss rfl rfl rfl))
  have hFirst := hSecond.tail (.use true (.accept rfl hName))
  have hSecond := hFirst.tail (.use false (.accept rfl hName))
  have hEntered := hSecond.tail (.use true (.enter rfl rfl))
  obtain ⟨begun, hBegun, hTrue, hFalse, hDisk, hHandles, hStores⟩ : ∃ begun : SharedManager Bool,
      Steps (start Store.localConfig .empty) begun ∧
      begun.calls true = .opening "s" (Store.open (Store.localConfig.forStore "s")) ∧
      begun.calls false = .waiting "s" ∧ begun.disk = .empty ∧ begun.handles = .empty ∧
      begun.opened = [] :=
    ⟨_, hEntered.tail (.use true (.begin rfl rfl)), rfl, rfl, rfl, rfl, rfl⟩
  rw [← hDisk] at hOpened
  obtain ⟨ended, hSteps, hDone, -, -, hHandles', hStores', hOthers⟩ := steps_of_runs hTrue hOpened
  have hWaiting : ended.calls false = .waiting "s" := (hOthers false nofun).trans hFalse
  obtain ⟨config, handles, opened, disk, lock, calls⟩ := ended
  obtain rfl : handles = .empty := hHandles'.trans hHandles
  obtain rfl : opened = [] := hStores'.trans hStores
  have hSucceeded := (hBegun.trans hSteps).tail (.use true (.succeed hDone))
  have hInserted := hSucceeded.tail (.use true (.insert (calls_move_self _ _ _)))
  have hLeft := hInserted.tail (.use true (.leave (calls_move_self _ _ _)))
  have hAgain := hLeft.tail (.use false (.enter hWaiting rfl))
  have hFound := hAgain.tail (.use false (.findAgain (calls_move_self _ _ _) rfl))
  have hReturned := hFound.tail (.use false (.leave (calls_move_self _ _ _)))
  obtain ⟨-, hReturns, -, -, -, -, -, -, -, hNames⟩ := one_store_per_name hReturned
  obtain ⟨s, hStore, -, hOpen⟩ := hReturns false "s" 0 rfl
  obtain rfl : Store.opened Store.localConfig .empty = s :=
    congrArg Prod.snd (Option.some.inj hStore)
  exact ⟨_, hReturned, rfl, rfl, rfl, (hNames rfl "s").mpr List.mem_cons_self, hOpen⟩

end SharedManager

end SnapshotStore

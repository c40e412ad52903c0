import TextureCache.Proofs.Export.Bookkeeping
import TextureCache.Proofs.Interleaving.Effect

/-! A reservation protects the whole write. While a path is reserved, its stamp answers every call
that the change is our own, and a call with that answer never reloads; this holds in every order in
which the parties make their steps. What breaks it is the output directory: when it is replaced
during a write to it, even by itself, the stamp is dropped with those of all finished writes. -/
namespace TextureCache

/-- A path is reserved and not settled yet, by a history with its newest event first. -/
def inFlight (path : Path) : List Event → Bool
  | [] => false
  | .reserved other :: rest => other.components = path.components || inFlight path rest
  | .settled other _ :: rest => other.components ≠ path.components && inFlight path rest
  | _ :: rest => inFlight path rest

/-- Since a path was reserved, the stamps under a directory above it were dropped. -/
def droppedInFlight (path : Path) : List Event → Bool
  | [] => false
  | .reserved other :: rest => other.components ≠ path.components && droppedInFlight path rest
  | .forgot directory :: rest =>
    directory.components.isPrefixOf path.components || droppedInFlight path rest
  | _ :: rest => droppedInFlight path rest

namespace Registry

/-- A pending write is our own, whatever the times are. -/
theorem isSelfWrite_of_pending {registry : Registry} {path : Path}
    (pending : registry.stamp? path = some .pending) (modified guard : Int) :
    registry.isSelfWrite path modified guard = true := by
  rw [isSelfWrite, pending]

end Registry

/-- All calls that asked for the stamp of a reserved path were told that the change is our own. -/
def AnswersOwn (history : List Event) : Prop :=
  ∀ after before call path own, history = after ++ .checked call path own :: before →
    inFlight path before = true → droppedInFlight path before = false → own = true

theorem AnswersOwn.cons {event : Event} {history : List Event} (answers : AnswersOwn history)
    (new : ∀ call path own, event = .checked call path own → inFlight path history = true →
      droppedInFlight path history = false → own = true) : AnswersOwn (event :: history) := by
  intro after before call path own same flight kept
  cases after with
  | nil =>
    obtain ⟨rfl, rfl⟩ := List.cons.inj same
    exact new call path own rfl flight kept
  | cons _ after =>
    obtain ⟨_, rest⟩ := List.cons.inj same
    exact answers after before call path own rest flight kept

/-- What holds of the registry, the calls and the history in every order of steps. -/
structure Guarded (live : Live) : Prop where
  pending : ∀ path, inFlight path live.history = true →
    droppedInFlight path live.history = false →
      live.workspace.registry.stamp? path = some .pending
  answers : AnswersOwn live.history
  answered : ∀ call path, .checked call path true ∈ live.history →
    live.changes[call]? = some ⟨path, .ended .selfWrite⟩
  reloaded : ∀ call handle, .reloaded call handle ∈ live.history →
    ∃ path, live.changes[call]? = some ⟨path, .ended (.reloaded handle)⟩

namespace Guarded

variable {live next : Live}

private theorem pending_of_alters {event : Event} {before after : Registry} {history : List Event}
    (alters : event.Alters before after) {path : Path}
    (earlier : inFlight path history = true → droppedInFlight path history = false →
      before.stamp? path = some .pending)
    (flight : inFlight path (event :: history) = true)
    (kept : droppedInFlight path (event :: history) = false) :
    after.stamp? path = some .pending := by
  cases event with
  | reserved other =>
    cases alters
    rw [Registry.stamp?_reserve]
    by_cases same : path.components = other.components
    · rw [if_pos same]
    · rw [if_neg same]
      simp only [inFlight, droppedInFlight, Ne.symm same, decide_false, Bool.false_or, ne_eq,
        not_false_eq_true, decide_true, Bool.true_and] at flight kept
      exact earlier flight kept
  | settled other finished =>
    obtain ⟨files, rfl⟩ := alters
    simp only [inFlight, droppedInFlight, Bool.and_eq_true, decide_eq_true_eq] at flight kept
    rw [Registry.stamp?_settle, if_neg flight.1.symm]
    exact earlier flight.2 kept
  | forgot directory =>
    cases alters
    simp only [inFlight, droppedInFlight, Bool.or_eq_false_iff] at flight kept
    rw [Registry.stamp?_forgetUnder, if_neg (by simp [kept.1])]
    exact earlier flight kept.2
  | linked name handle =>
    cases alters
    exact earlier flight kept
  | released handle =>
    cases alters
    exact earlier flight kept
  | checked call path own => cases alters
  | reloaded call handle => cases alters

private theorem pending_of_effect (guarded : Guarded live) (effect : Effect live next) (path : Path)
    (flight : inFlight path next.history = true)
    (kept : droppedInFlight path next.history = false) :
    next.workspace.registry.stamp? path = some .pending := by
  cases effect with
  -- Calls ask the registry and do not change it, and what they add to the history is no end of a
  -- reservation.
  | operation event alters changes history =>
    rw [history] at flight kept
    exact pending_of_alters alters (guarded.pending path) flight kept
  | silent registry changes history | arrival _ _ registry changes history
  | move _ _ _ _ _ _ registry changes history | check _ _ _ _ _ _ _ _ _ registry changes history
  | reload _ _ _ _ _ _ registry changes history =>
    rw [history] at flight kept
    rw [registry]
    exact guarded.pending path flight kept

private theorem answers_of_effect (guarded : Guarded live) (effect : Effect live next) :
    AnswersOwn next.history := by
  cases effect with
  | silent registry changes history | arrival _ _ registry changes history
  | move _ _ _ _ _ _ registry changes history =>
    rw [history]
    exact guarded.answers
  | operation event alters changes history =>
    rw [history]
    refine guarded.answers.cons ?_
    rintro call path own rfl
    exact alters.elim
  | check call path name modified guard attempts own there asked registry changes history =>
    rw [history]
    refine guarded.answers.cons ?_
    rintro _ _ _ ⟨⟩ flight kept
    rw [asked]
    exact Registry.isSelfWrite_of_pending (guarded.pending path flight kept) modified guard
  | reload call path name handle there linked registry changes history =>
    rw [history]
    exact guarded.answers.cons nofun

private theorem answered_of_effect (guarded : Guarded live) (effect : Effect live next)
    (call : Call) (path : Path) (member : .checked call path true ∈ next.history) :
    next.changes[call]? = some ⟨path, .ended .selfWrite⟩ := by
  have earlier (told : .checked call path true ∈ live.history) :=
    effect.keeps_ended (guarded.answered call path told)
  cases effect with
  | silent registry changes history | arrival _ _ registry changes history
  | move _ _ _ _ _ _ registry changes history =>
    exact earlier (history ▸ member)
  | operation event alters changes history =>
    rw [history] at member
    rcases List.mem_cons.mp member with rfl | told
    · exact alters.elim
    · exact earlier told
  | check other target name modified guard attempts own there asked registry changes history =>
    rw [history] at member
    rcases List.mem_cons.mp member with same | told
    · cases same
      rw [changes]
      exact Effect.getElem?_set_of_there _ there
    · exact earlier told
  | reload other target name handle there linked registry changes history =>
    rw [history] at member
    exact earlier ((List.mem_cons.mp member).resolve_left nofun)

private theorem reloaded_of_effect (guarded : Guarded live) (effect : Effect live next)
    (call : Call) (handle : Handle) (member : .reloaded call handle ∈ next.history) :
    ∃ path, next.changes[call]? = some ⟨path, .ended (.reloaded handle)⟩ := by
  have earlier (told : .reloaded call handle ∈ live.history) :
      ∃ path, next.changes[call]? = some ⟨path, .ended (.reloaded handle)⟩ := by
    obtain ⟨path, ended⟩ := guarded.reloaded call handle told
    exact ⟨path, effect.keeps_ended ended⟩
  cases effect with
  | silent registry changes history | arrival _ _ registry changes history
  | move _ _ _ _ _ _ registry changes history =>
    exact earlier (history ▸ member)
  | operation event alters changes history =>
    rw [history] at member
    rcases List.mem_cons.mp member with rfl | told
    · exact alters.elim
    · exact earlier told
  | check other target name modified guard attempts own there asked registry changes history =>
    rw [history] at member
    exact earlier ((List.mem_cons.mp member).resolve_left nofun)
  | reload other target name given there linked registry changes history =>
    rw [history] at member
    rcases List.mem_cons.mp member with same | told
    · cases same
      rw [changes]
      exact ⟨target, Effect.getElem?_set_of_there _ there⟩
    · exact earlier told

theorem of_effect (guarded : Guarded live) (effect : Effect live next) : Guarded next where
  pending := guarded.pending_of_effect effect
  answers := guarded.answers_of_effect effect
  answered := guarded.answered_of_effect effect
  reloaded := guarded.reloaded_of_effect effect

/-- A history without events says nothing yet. -/
theorem initial (fresh : live.history = []) : Guarded live := by
  constructor <;> rw [fresh]
  · exact fun path flight => Bool.noConfusion flight
  · intro after before call path own same
    exact absurd same.symm (List.append_ne_nil_of_right_ne_nil _ (List.cons_ne_nil _ _))
  · exact fun _ _ member => absurd member List.not_mem_nil
  · exact fun _ _ member => absurd member List.not_mem_nil

theorem of_run {actions : List Action} (fresh : live.history = [])
    (run : live.run actions = some next) : Guarded next :=
  Live.run_induction (fun _ _ effect guarded => guarded.of_effect effect) run (.initial fresh)

end Guarded

namespace Live

/-- A call that asks for the stamp of a path after the path was reserved and before it is settled
never has a texture imported again, whatever the parties do and in whatever order, as long as the
stamps of the directory are not dropped in between. -/
theorem no_reload_in_flight {start live : Live} {actions : List Action}
    (fresh : start.history = []) (run : start.run actions = some live) {after before : List Event}
    {call : Call} {path : Path} {own : Bool}
    (asked : live.history = after ++ .checked call path own :: before)
    (flight : inFlight path before = true) (kept : droppedInFlight path before = false) :
    own = true ∧ live.changes[call]? = some ⟨path, .ended .selfWrite⟩ ∧
      ∀ handle, .reloaded call handle ∉ live.history := by
  have guarded : Guarded live := .of_run fresh run
  have told : own = true := guarded.answers after before call path own asked flight kept
  subst told
  have ended := guarded.answered call path (asked ▸ List.mem_append_right _ List.mem_cons_self)
  refine ⟨rfl, ended, fun handle member => ?_⟩
  obtain ⟨_, reloaded⟩ := guarded.reloaded call handle member
  cases ended.symm.trans reloaded

/-- A DDS file of one texel is being written when a change of it is handled. -/
theorem no_reload_in_flight_texel :
    let texture : Texture := ⟨⟨1, 1, 1, 1, 1⟩, .rgba8 .linear, .texture2D, [1, 2, 3, 4]⟩
    let directory := Path.ofNames ["d"]
    let name := (texture.fileName .dds).render
    let path := directory.join name
    let storage : Storage := ⟨true, .dds, ⟨some directory, [directory]⟩,
      [⟨⟨7⟩, texture, directory, .dds⟩], some ⟨2, 1⟩, none⟩
    let files := (FileSystem.initial ⟨0⟩).setNode ["d"] (.directory ⟨0⟩)
    let start : Live := ⟨storage, .ofFiles files, .idle, [], []⟩
    let actions := [.link name ⟨7⟩, .take (.standard Png.stored) .plain, .work, .notify path, .work,
      .attend 0, .attend 0]
    ∃ live, start.run actions = some live ∧ live.changes[0]? = some ⟨path, .ended .selfWrite⟩ ∧
      ∀ handle, .reloaded 0 handle ∉ live.history := by
  intro texture directory name path storage files start actions
  have history : (start.run actions).map Live.history =
      some ([] ++ .checked 0 path true :: [.reserved path, .linked name ⟨7⟩]) := by
    decide +kernel
  obtain ⟨live, run, asked⟩ := Option.map_eq_some_iff.mp history
  exact ⟨live, run,
    (no_reload_in_flight rfl run asked (by decide +kernel) (by decide +kernel)).2⟩

/-- The output directory is replaced by itself while a file in it is being written. The stamp of the
file is dropped, and a change of it is handled as one from outside. -/
theorem reload_in_flight_replaced :
    let texture : Texture := ⟨⟨1, 1, 1, 1, 1⟩, .rgba8 .linear, .texture2D, [1, 2, 3, 4]⟩
    let directory := Path.ofNames ["d"]
    let name := (texture.fileName .dds).render
    let path := directory.join name
    let storage : Storage := ⟨true, .dds, ⟨some directory, [directory]⟩,
      [⟨⟨7⟩, texture, directory, .dds⟩], some ⟨2, 1⟩, none⟩
    let files := (FileSystem.initial ⟨0⟩).setNode ["d"] (.directory ⟨0⟩)
    let start : Live := ⟨storage, .ofFiles files, .idle, [], []⟩
    let actions := [.link name ⟨7⟩, .take (.standard Png.stored) .plain, .work, .work,
      .setOutput (some directory), .notify path, .attend 0, .attend 0, .attend 0, .attend 0]
    let before := [.forgot directory, .reserved path, .linked name ⟨7⟩]
    (start.run actions).map Live.history =
        some (.reloaded 0 ⟨7⟩ :: .checked 0 path false :: before) ∧
      inFlight path before = true := by
  decide +kernel

end Live
end TextureCache

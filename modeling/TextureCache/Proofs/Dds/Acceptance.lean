import TextureCache.Proofs.Dds.Canonical
import TextureCache.Proofs.Export.Plan

/-! What the DDS writer accepts. It takes every image whose texels fill the payload and whose format
its arrangement can name, and writes exactly the header and the payload; anything else it refuses
before the first byte. An export hands it nothing that it refuses. -/
namespace TextureCache

/-- A place that takes whatever bytes it is given, piece by piece. -/
structure Writer (State : Type) where
  write : State → Bytes → State
  flush : State → State
  /-- All bytes that it was given so far. -/
  written : State → Bytes
  written_write : ∀ state bytes, written (write state bytes) = written state ++ bytes
  written_flush : ∀ state, written (flush state) = written state

def Writer.memory : Writer Bytes where
  write := List.append
  flush := id
  written := id
  written_write := fun _ _ => rfl
  written_flush := fun _ => rfl

namespace Dds

variable {info : ImageInfo} {texels : Bytes} {State : Type}

/-- The texels fill the payload, and a header can describe the image. -/
def Accepts (info : ImageInfo) (texels : Bytes) : Prop :=
  info.payloadSize ≤ texels.length ∧ canStore info.format info.dimensions = true

instance (info : ImageInfo) (texels : Bytes) : Decidable (Accepts info texels) :=
  inferInstanceAs (Decidable (_ ∧ _))

/-- Write the file of an image, with every number checked that goes into it: the outcome, and the
writer afterwards. -/
def guardedWrite (writer : Writer State) (info : ImageInfo) (texels : Bytes) (state : State) :
    Option (Except SaveError Unit × State) :=
  if texels.length < info.payloadSize then
    some (.error (.textureTooShort texels.length info.payloadSize), state)
  else
    match extensionOf info with
    | .error error => some (.error error, state)
    | .ok extension => do
      let _pitch ← fitsWord (pitchSize info)
      let fixed := writer.write (writer.write state magic) (encodeWords (build info).toWords)
      let headed := match extension with
        | none => fixed
        | some extension => writer.write fixed (encodeWords extension.toWords)
      let payload ← guardedPayload info texels
      some (.ok (), writer.flush (writer.write headed payload))

/-- The extended header is missing only where the arrangement asks for one that the format has no
number for. -/
theorem extensionOf_cases (info : ImageInfo) :
    (canStore info.format info.dimensions = true ∧ ∃ extension, extensionOf info = .ok extension) ∨
      (canStore info.format info.dimensions = false ∧
        extensionOf info = .error (.arrayFormat info.format)) := by
  unfold canStore extensionOf
  cases needsExtension info.dimensions with
  | false => exact .inl ⟨rfl, none, rfl⟩
  | true =>
    cases formatNumber? info.format with
    | none => exact .inr ⟨rfl, rfl⟩
    | some number => exact .inl ⟨rfl, some (buildExtension info number), rfl⟩

/-- Texels of a length that a machine can address have a payload of its exact size. -/
theorem exactSize_of_enough (addressable : texels.length < 2 ^ 63)
    (enough : info.payloadSize ≤ texels.length) :
    info.exactSize < wordLimit ∧ info.payloadSize = info.exactSize := by
  have word : info.exactSize < wordLimit := by
    by_contra exceeds
    have size : info.payloadSize = wordLimit - 1 := by
      rw [ImageInfo.payloadSize, ImageInfo.checkedSize_eq,
        fitsWord_eq_none_iff.mpr (Nat.not_lt.mp exceeds)]
      rfl
    unfold wordLimit UInt64.size at size
    omega
  exact ⟨word, ImageInfo.payloadSize_eq word⟩

/-- What is accepted is written: the header that the arrangement calls for, and the payload. -/
theorem save_of_accepts (addressable : texels.length < 2 ^ 63) (accepts : Accepts info texels) :
    ∃ file, save info texels = .ok file ∧
      file.length = payloadOffset info.dimensions + info.payloadSize := by
  obtain ⟨enough, stored⟩ := accepts
  obtain ⟨word, size⟩ := exactSize_of_enough addressable enough
  refine ⟨_, save_eq_of_canStore stored enough, ?_⟩
  rw [List.length_append, length_headerBytes_of_canStore stored,
    length_payload word (size ▸ enough), size]

/-- A writer gets the file, in pieces, and nothing that goes into it leaves its bounds. -/
theorem guardedWrite_of_accepts (levels : 1 ≤ info.levels.toNat)
    (addressable : texels.length < 2 ^ 63) (accepts : Accepts info texels)
    (writer : Writer State) (state : State) {file : Bytes} (saved : save info texels = .ok file) :
    ∃ after, guardedWrite writer info texels state = some (.ok (), after) ∧
      writer.written after = writer.written state ++ file := by
  obtain ⟨enough, stored⟩ := accepts
  obtain ⟨word, size⟩ := exactSize_of_enough addressable enough
  have long := Nat.not_lt.mpr enough
  have payload := guardedPayload_eq word (size ▸ enough)
  rcases extensionOf_cases info with ⟨_, extension, found⟩ | ⟨none, _⟩
  · unfold save at saved
    rw [if_neg long, found] at saved
    cases saved
    unfold guardedWrite
    simp only [if_neg long, found, fitsWord_of_lt (pitchSize_lt levels word), payload,
      Option.bind_eq_bind, Option.bind_some]
    refine ⟨_, rfl, ?_⟩
    cases extension <;>
      simp [writer.written_flush, writer.written_write]
  · rw [none] at stored
    cases stored

private theorem guardedWrite_of_not_accepts (refused : ¬ Accepts info texels) :
    ∃ error, save info texels = .error error ∧ error.isInvalidInput = true ∧
      ∀ (State : Type) (writer : Writer State) (state : State),
        guardedWrite writer info texels state = some (.error error, state) := by
  unfold save guardedWrite
  by_cases short : texels.length < info.payloadSize
  · simp only [if_pos short]
    exact ⟨_, rfl, rfl, fun _ _ _ => rfl⟩
  · rcases extensionOf_cases info with ⟨stored, _⟩ | ⟨_, missing⟩
    · exact absurd ⟨Nat.not_lt.mp short, stored⟩ refused
    · simp only [if_neg short, missing]
      exact ⟨_, rfl, rfl, fun _ _ _ => rfl⟩

theorem save_eq_ok_iff {file : Bytes} :
    save info texels = .ok file ↔
      Accepts info texels ∧ file = headerBytes info ++ payload info texels := by
  constructor
  · intro saved
    by_cases accepts : Accepts info texels
    · have written := save_eq_of_canStore accepts.2 accepts.1
      exact ⟨accepts, Except.ok.inj (saved.symm.trans written)⟩
    · obtain ⟨error, refused, _⟩ := guardedWrite_of_not_accepts accepts
      cases saved.symm.trans refused
  · rintro ⟨⟨enough, stored⟩, rfl⟩
    exact save_eq_of_canStore stored enough

end Dds

namespace ExportJob

variable {texture : Texture} {draft : Draft} {codec : Codec}

/-- Whatever the codec makes of a texture, its DDS file is planned only of what can be saved. -/
theorem accepts_of_mem_planDds (member : draft ∈ (planDds codec texture).drafts) :
    ∃ info texels, draft.contents = Dds.save info texels ∧ Dds.Accepts info texels ∧
      info.levels = texture.shape.levels ∧
      (texels = texture.data ∨ codec.decode texture = .pixels texels) := by
  obtain ⟨dimensions, stored, texels, arranged, chosen, enough, rfl⟩ :=
    stored_of_mem_planDds member
  refine ⟨ddsInfo texture stored dimensions, texels, rfl, ?_⟩
  cases native : nativeFormat? texture dimensions with
  | some format =>
    rw [native] at chosen
    obtain ⟨rfl, rfl⟩ := chosen
    exact ⟨⟨enough, (nativeFormat?_eq_some_iff.mp native).2⟩, rfl, .inl rfl⟩
  | none =>
    rw [native] at chosen
    obtain ⟨rfl, decoded⟩ := chosen
    exact ⟨⟨enough, canStore_rgba8 dimensions⟩, rfl, .inr decoded⟩

private theorem length_ddsDraft_le (texture : Texture) (info : ImageInfo) (texels : Bytes) :
    (ddsDraft texture info texels).drafts.length ≤ 1 := by
  unfold ddsDraft
  split
  · exact Nat.zero_le 1
  · exact Nat.le_refl 1

private theorem length_planDds_le (codec : Codec) (texture : Texture) :
    (planDds codec texture).drafts.length ≤ 1 := by
  unfold planDds
  split
  · exact Nat.zero_le 1
  · split
    · exact length_ddsDraft_le _ _ _
    · rcases drafts_ofDecoded codec texture _ with none | ⟨data, _, same⟩
      · rw [none]
        exact Nat.zero_le 1
      · rw [same]
        exact length_ddsDraft_le _ _ _

end ExportJob

namespace Workspace

private theorem files_exportDraft_cases (workspace : Workspace) (job : ExportJob) (draft : Draft) :
    (workspace.exportDraft job draft).files = workspace.files ∨
      workspace.files.write (job.directory.join draft.name) (draft.contents.toOption.getD []) =
        .ok (workspace.exportDraft job draft).files := by
  cases written : workspace.files.write (job.directory.join draft.name)
      (draft.contents.toOption.getD []) with
  | ok files => exact .inr (congrArg Except.ok (files_exportDraft written).symm)
  | error fault =>
    refine .inl ?_
    unfold exportDraft writeDraft
    simp only [reserve, updateRegistry, settle, record, written]
    rfl

/-- What a DDS export leaves: the files as they were, or one more write, which is not empty. -/
theorem files_exportTexture_dds (workspace : Workspace) (codec : Codec) {job : ExportJob}
    (container : job.container = .dds) :
    (workspace.exportTexture codec job).1.files = workspace.files ∨
      ∃ name contents, Dds.headerSize ≤ contents.length ∧
        workspace.files.write (job.directory.join name) contents =
          .ok (workspace.exportTexture codec job).1.files := by
  have planned : (job.plan codec).drafts = [] ∨
      (job.plan codec).drafts = (ExportJob.planDds codec job.texture).drafts := by
    unfold ExportJob.plan
    rw [container]
    split
    · exact .inr rfl
    · exact .inl rfl
  obtain ⟨start, same, left⟩ := files_exportTexture_eq_foldl workspace codec job
  rcases planned with none | planned
  · rw [none] at left
    exact .inl (left.trans same)
  · rw [planned] at left
    have count := ExportJob.length_planDds_le codec job.texture
    cases drafts : (ExportJob.planDds codec job.texture).drafts with
    | nil =>
      rw [drafts] at left
      exact .inl (left.trans same)
    | cons draft rest =>
      rw [drafts] at left count
      have single : rest = [] :=
        List.length_eq_zero_iff.mp (Nat.le_zero.mp (Nat.le_of_succ_le_succ count))
      subst single
      rw [left, ← same]
      refine (files_exportDraft_cases start job draft).imp id fun written => ?_
      have member : draft ∈ (ExportJob.planDds codec job.texture).drafts :=
        drafts ▸ List.mem_cons_self
      obtain ⟨info, texels, contents, ⟨enough, stored⟩, _⟩ :=
        ExportJob.accepts_of_mem_planDds member
      refine ⟨_, _, ?_, written⟩
      rw [contents, Dds.save_eq_of_canStore stored enough]
      change Dds.headerSize ≤ (Dds.headerBytes info ++ _).length
      rw [List.length_append, Dds.length_headerBytes_of_canStore stored]
      exact Nat.le_add_right_of_le (Dds.payloadOffset_bounds _).1

end Workspace

namespace Dds

/-- The writer accepts exactly what a file can hold. Where the texels fill the payload and a header
can describe the image, every writer gets a file of exactly the header and the payload; otherwise it
gets no byte, and the input is named as the reason. An export hands over only what is accepted,
whatever its decoder answers, so it never leaves an empty file behind. -/
theorem save_accepts :
    (∀ (info : ImageInfo) (texels : Bytes), 1 ≤ info.levels.toNat → texels.length < 2 ^ 63 →
      (Accepts info texels → ∃ file, save info texels = .ok file ∧
        file.length =
          (if info.dimensions = .flatArray ∨ info.dimensions = .cubeArray then 148 else 128) +
            info.payloadSize ∧
        ∀ (State : Type) (writer : Writer State) (state : State), ∃ after,
          guardedWrite writer info texels state = some (.ok (), after) ∧
            writer.written after = writer.written state ++ file) ∧
      (¬ Accepts info texels → ∃ error, save info texels = .error error ∧
        error.isInvalidInput = true ∧
        ∀ (State : Type) (writer : Writer State) (state : State),
          guardedWrite writer info texels state = some (.error error, state))) ∧
    ∀ (codec : Codec) (workspace : Workspace) (job : ExportJob),
      job.container = .dds → 1 ≤ job.texture.shape.levels.toNat →
        (∀ draft ∈ (ExportJob.planDds codec job.texture).drafts, ∃ info texels,
          draft.contents = save info texels ∧ Accepts info texels ∧ 1 ≤ info.levels.toNat ∧
            (texels = job.texture.data ∨ codec.decode job.texture = .pixels texels)) ∧
        let after := (workspace.exportTexture codec job).1.files
        after = workspace.files ∨ ∃ name contents, headerSize ≤ contents.length ∧
          workspace.files.write (job.directory.join name) contents = .ok after := by
  refine ⟨?_, ?_⟩
  · intro info texels levels addressable
    refine ⟨?_, guardedWrite_of_not_accepts⟩
    intro accepts
    obtain ⟨file, saved, length⟩ := save_of_accepts addressable accepts
    refine ⟨file, saved, ?_, ?_⟩
    · rw [length]
      unfold payloadOffset needsExtension
      simp only [Bool.or_eq_true, decide_eq_true_eq]
      rfl
    · intro State writer state
      exact guardedWrite_of_accepts levels addressable accepts writer state saved
  · intro codec workspace job container levels
    refine ⟨?_, Workspace.files_exportTexture_dds workspace codec container⟩
    intro draft member
    obtain ⟨info, texels, contents, accepts, same, source⟩ :=
      ExportJob.accepts_of_mem_planDds member
    exact ⟨info, texels, contents, accepts, same ▸ levels, source⟩

/-- Two layers of 16-bit texels are refused, as an array of them has no number; with texels of 32
bits they are written behind what was there. -/
theorem save_accepts_layers :
    let packed : ImageInfo := ⟨2, 1, 2, 1, .r5g6b5, .flatArray⟩
    let plain : ImageInfo := { packed with format := .rgba8 }
    guardedWrite .memory packed (Bytes.zeros 16) [7] =
        some (.error (.arrayFormat .r5g6b5), [7]) ∧
      ∃ after, guardedWrite .memory plain (Bytes.zeros 16) [7] = some (.ok (), after) ∧
        after.length = 1 + (148 + 16) := by
  intro packed plain
  have exactly := save_accepts.1
  constructor
  · obtain ⟨error, refused, _, unwritten⟩ :=
      (exactly packed (Bytes.zeros 16) (by decide) (by decide)).2 (by decide)
    have named : save packed (Bytes.zeros 16) = .error (.arrayFormat .r5g6b5) := rfl
    obtain rfl : SaveError.arrayFormat .r5g6b5 = error :=
      Except.error.inj (named.symm.trans refused)
    exact unwritten Bytes .memory [7]
  · obtain ⟨file, _, length, written⟩ :=
      (exactly plain (Bytes.zeros 16) (by decide) (by decide)).1 (by decide)
    obtain ⟨after, ends, contents⟩ := written Bytes .memory [7]
    refine ⟨after, ends, ?_⟩
    have whole : after = [7] ++ file := contents
    have size : plain.payloadSize = 16 := by decide
    rw [whole, List.length_append, length, size]
    rfl

end Dds
end TextureCache

import TextureCache.Proofs.Dds.Reimport

/-! What is in a plan. Each file that an export plans is traced back to the texels that it was made
of: those that a DDS file stores, or the cut of a slice from the decoded ones. -/
namespace TextureCache.ExportJob

variable {texture : Texture} {draft : Draft} {encoder : Png.Encoder}

private theorem of_mem_ddsDraft {info : ImageInfo} {texels : Bytes}
    (member : draft ∈ (ddsDraft texture info texels).drafts) :
    info.payloadSize ≤ texels.length ∧
      draft = ⟨(texture.fileName .dds).render, Dds.save info texels⟩ := by
  unfold ddsDraft at member
  split at member
  · cases member
  · rename_i enough
    exact ⟨Nat.not_lt.mp enough, List.mem_singleton.mp member⟩

/-- What is planned with decoded pixels is planned only if there are any. -/
theorem drafts_ofDecoded (codec : Codec) (texture : Texture) (next : Bytes → ExportPlan) :
    (ExportPlan.ofDecoded codec texture next).drafts = [] ∨
      ∃ data, codec.decode texture = .pixels data ∧
        (ExportPlan.ofDecoded codec texture next).drafts = (next data).drafts := by
  unfold ExportPlan.ofDecoded
  cases decoded : codec.decode texture with
  | pixels data => exact .inr ⟨data, rfl, rfl⟩
  | refused error => exact .inl rfl
  | broken => exact .inl rfl

private theorem of_mem_ofDecoded {codec : Codec} {next : Bytes → ExportPlan}
    (member : draft ∈ (ExportPlan.ofDecoded codec texture next).drafts) :
    ∃ data, codec.decode texture = .pixels data ∧ draft ∈ (next data).drafts := by
  rcases drafts_ofDecoded codec texture next with none | ⟨data, decoded, same⟩
  · rw [none] at member
    cases member
  · exact ⟨data, decoded, same ▸ member⟩

/-- A DDS file is planned only of texels that fill it: the texture's own where a file can hold them,
else what they are decoded to. -/
theorem stored_of_mem_planDds {codec : Codec}
    (member : draft ∈ (planDds codec texture).drafts) :
    ∃ dimensions stored texels, texture.target.dimensions? = some dimensions ∧
      (match nativeFormat? texture dimensions with
        | some format => stored = format ∧ texels = texture.data
        | none => stored = .rgba8 ∧ codec.decode texture = .pixels texels) ∧
      (ddsInfo texture stored dimensions).payloadSize ≤ texels.length ∧
      draft = ⟨(texture.fileName .dds).render,
        Dds.save (ddsInfo texture stored dimensions) texels⟩ := by
  unfold planDds at member
  cases arranged : texture.target.dimensions? with
  | none =>
    rw [arranged] at member
    cases member
  | some dimensions =>
    simp only [arranged] at member
    cases native : nativeFormat? texture dimensions with
    | some format =>
      simp only [native] at member
      exact ⟨dimensions, format, texture.data, rfl, by rw [native]; exact ⟨rfl, rfl⟩,
        of_mem_ddsDraft member⟩
    | none =>
      simp only [native] at member
      obtain ⟨data, decoded, inside⟩ := of_mem_ofDecoded member
      exact ⟨dimensions, .rgba8, data, rfl, by rw [native]; exact ⟨rfl, decoded⟩,
        of_mem_ddsDraft inside⟩

private theorem standard_eq_pixels_iff {data : Bytes} :
    (Codec.standard encoder).decode texture = .pixels data ↔ texture.toRgba8 = .ok data := by
  unfold Codec.standard
  dsimp only
  cases texture.toRgba8 <;> simp

/-- With the codec for every format, a DDS file is planned of what stores the texture. -/
theorem of_mem_planDds (member : draft ∈ (planDds (.standard encoder) texture).drafts) :
    ∃ dimensions stored texels, texture.target.dimensions? = some dimensions ∧
      texture.StoredAs dimensions stored texels ∧
      (ddsInfo texture stored dimensions).payloadSize ≤ texels.length ∧
      draft = ⟨(texture.fileName .dds).render,
        Dds.save (ddsInfo texture stored dimensions) texels⟩ := by
  obtain ⟨dimensions, stored, texels, arranged, chosen, filled⟩ := stored_of_mem_planDds member
  refine ⟨dimensions, stored, texels, arranged, ?_, filled⟩
  unfold Texture.StoredAs
  cases native : nativeFormat? texture dimensions with
  | some format => rwa [native] at chosen
  | none =>
    rw [native] at chosen
    exact ⟨chosen.1, standard_eq_pixels_iff.mp chosen.2⟩

private theorem of_mem_pngDrafts {codec : Codec} {pixels : Bytes} {regions : List Region}
    (member : draft ∈ (pngDrafts codec texture pixels regions).drafts) :
    ∃ region ∈ regions, draft = pngDraft codec texture pixels region := by
  induction regions with
  | nil => cases member
  | cons region rest ih =>
    unfold pngDrafts at member
    split at member
    · cases member
    · rcases List.mem_cons.mp member with rfl | behind
      · exact ⟨region, List.mem_cons_self, rfl⟩
      · obtain ⟨other, inside, rfl⟩ := ih behind
        exact ⟨other, List.mem_cons_of_mem _ inside, rfl⟩

/-- Every planned PNG file is that of a region of the decoded texels. -/
theorem exists_region_of_mem_planPng
    (member : draft ∈ (planPng (.standard encoder) texture).drafts) :
    ∃ pixels, texture.toRgba8 = .ok pixels ∧ ∃ region ∈ texture.shape.rgba8Regions,
      draft = pngDraft (.standard encoder) texture pixels region := by
  obtain ⟨pixels, decoded, inside⟩ := of_mem_ofDecoded member
  exact ⟨pixels, standard_eq_pixels_iff.mp decoded, of_mem_pngDrafts inside⟩

end TextureCache.ExportJob

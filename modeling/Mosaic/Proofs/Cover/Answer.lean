import Mosaic.Proofs.Cover.Clean

/-! When the check answers at all. It joins the regions one by one and adds up their areas, whatever their
fields hold, so it is refused exactly where two edges lie too far apart or where the areas of the first regions
are too much. Negative extents are joined and added too. -/
namespace Mosaic

namespace Area

theorem exists_foldlM_add_iff {as : List Int} {a : Int} (ha : Fits a) :
    (∃ b, as.foldlM add a = .ok b) ↔ ∀ ps, ps <+: as → Fits (a + ps.sum) := by
  induction as generalizing a with
  | nil =>
    refine iff_of_true ⟨a, rfl⟩ fun ps hps => ?_
    rw [List.prefix_nil.1 hps, List.sum_nil, Int.add_zero]
    exact ha
  | cons c as ih =>
    rw [List.foldlM_cons]
    constructor
    · rintro ⟨b, hb⟩ ps hps
      obtain ⟨m, hm, hb⟩ := Checked.bind_eq_ok.1 hb
      unfold add at hm
      split at hm
      · next hfits =>
        cases hm
        rcases List.prefix_cons_iff.1 hps with rfl | ⟨qs, rfl, hqs⟩
        · rwa [List.sum_nil, Int.add_zero]
        · rw [List.sum_cons, ← Int.add_assoc]
          exact (ih hfits).1 ⟨b, hb⟩ qs hqs
      · cases hm
    · intro hsums
      have hfits : Fits (a + c) := by
        have hone := hsums [c] (List.prefix_append [c] as)
        rwa [List.sum_singleton] at hone
      have hrest : ∀ ps, ps <+: as → Fits (a + c + ps.sum) := by
        intro ps hps
        have hsum := hsums (c :: ps) ((List.prefix_cons_inj c).2 hps)
        rwa [List.sum_cons, ← Int.add_assoc] at hsum
      obtain ⟨b, hb⟩ := (ih hfits).2 hrest
      exact ⟨b, Checked.bind_eq_ok.2 ⟨a + c, if_pos hfits, hb⟩⟩

end Area

namespace Cover

variable {container : Rect} {placements : List Placement}

theorem exists_coverIssues_iff (hfits : ∀ r ∈ rects placements, r.Fits) :
    (∃ cover, coverIssues container placements = .ok cover) ↔ Rect.Joinable (rects placements) ∧
      ∀ ps, ps <+: rects placements → Area.Fits (ps.map (·.area)).sum := by
  have hsums : (∃ total, ((rects placements).map (·.area)).foldlM Area.add 0 = .ok total) ↔
      ∀ ps, ps <+: rects placements → Area.Fits (ps.map (·.area)).sum := by
    rw [Area.exists_foldlM_add_iff (by decide)]
    simp only [List.prefix_map_iff, Int.zero_add]
    exact ⟨fun h ps hps => h _ ⟨ps, hps, rfl⟩, fun h as ⟨ps, hps, heq⟩ => heq ▸ h ps hps⟩
  rw [← Rect.exists_boundingBox_iff hfits, ← hsums]
  constructor
  · rintro ⟨cover, hcover⟩
    obtain ⟨box, hbox, hcover⟩ := Checked.bind_eq_ok.1 hcover
    obtain ⟨total, htotal, -⟩ := Checked.bind_eq_ok.1 hcover
    exact ⟨⟨box, hbox⟩, total, htotal⟩
  · rintro ⟨⟨box, hbox⟩, total, htotal⟩
    unfold rects at hbox htotal
    simp only [coverIssues, hbox, htotal, bind, Except.bind]
    split
    · exact ⟨_, rfl⟩
    · exact ⟨_, rfl⟩

/-- The check answers where the regions can be joined and the areas of the first of them, however many, are
not too much. -/
theorem exists_check_iff (hfits : ∀ r ∈ rects placements, r.Fits) :
    (∃ report, check container placements = .ok report) ↔ Rect.Joinable (rects placements) ∧
      ∀ ps, ps <+: rects placements → Area.Fits (ps.map (·.area)).sum := by
  by_cases hne : placements = []
  · subst hne
    refine iff_of_true ⟨_, rfl⟩ ⟨⟨nofun, nofun⟩, fun ps hps => ?_⟩
    rw [List.prefix_nil.1 hps]
    decide
  · rw [check, if_neg hne, ← exists_coverIssues_iff hfits]
    constructor
    · rintro ⟨report, hreport⟩
      obtain ⟨cover, hcover, -⟩ := Checked.bind_eq_ok.1 hreport
      exact ⟨cover, hcover⟩
    · rintro ⟨cover, hcover⟩
      obtain ⟨places, hplaces, -⟩ := exists_placeIssues container hfits
      exact ⟨_, by rw [hcover, hplaces]; rfl⟩

end Cover

end Mosaic

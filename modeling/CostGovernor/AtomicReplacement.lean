import CostGovernor.FileReplacement

/-!
# Writers that take turns and writers that overlap

A disk on which writers take turns is a shelf with one stored file and the jobs under way.
Of two writers that overlap on the temporary file, the second leaves its own data followed
by what the first wrote beyond it.
-/

namespace FileReplacement

open Executions

variable {α : Type}

namespace Disk

theorem shelf_setWriter (d : Disk α) (k : ℕ) (w : Option (Writer α)) :
    (d.setWriter k w).shelf = d.shelf.setJob k (w.map fun w => (w.data, w.pos)) := by
  have hjobs : (fun k' => (Function.update d.writers k w k').map fun w => (w.data, w.pos)) =
      Function.update (fun k' => (d.writers k').map fun w => (w.data, w.pos)) k
        (w.map fun w => (w.data, w.pos)) := by
    funext k'
    by_cases hk : k' = k
    · subst hk
      rw [Function.update_self, Function.update_self]
    · rw [Function.update_of_ne hk, Function.update_of_ne hk]
  exact congrArg (Shelf.mk d.read) hjobs

theorem read_update {d d' : Disk α} {f : ℕ} {content : List α}
    (hcontents : d'.contents = Function.update d.contents f content)
    (htarget : d'.target = d.target) (hne : d.target ≠ some f) : d'.read = d.read := by
  rw [read, read, htarget, hcontents]
  cases ht : d.target with
  | none => rfl
  | some g =>
      have hgf : g ≠ f := by
        rintro rfl
        exact hne ht
      exact congrArg some (Function.update_of_ne hgf _ _)

theorem Sound.tempFile_ne {d : Disk α} (h : d.Sound) : d.target ≠ some d.tempFile := by
  intro ht
  unfold tempFile at ht
  cases htemp : d.temp with
  | none =>
      rw [htemp] at ht
      exact absurd (h.target _ ht) (lt_irrefl _)
  | some f =>
      rw [htemp] at ht
      exact h.apart f ht htemp

theorem Sound.setWriter_none {d : Disk α} (h : d.Sound) (k : ℕ) : (d.setWriter k none).Sound := by
  have hback : ∀ k' w, (d.setWriter k none).writers k' = some w → d.writers k' = some w := by
    intro k' w hw
    change Function.update d.writers k none k' = some w at hw
    by_cases hk : k' = k
    · subst hk
      rw [Function.update_self] at hw
      cases hw
    · rwa [Function.update_of_ne hk] at hw
  refine ⟨h.target, h.temp, h.apart, ?_, fun k' w hw => h.written k' w (hback k' w hw)⟩
  intro k₁ k₂ h₁ h₂
  obtain ⟨w₁, hw₁⟩ := Option.ne_none_iff_exists'.1 h₁
  obtain ⟨w₂, hw₂⟩ := Option.ne_none_iff_exists'.1 h₂
  exact h.alone k₁ k₂ (by rw [hback _ _ hw₁]; simp) (by rw [hback _ _ hw₂]; simp)

theorem Sound.createTemp {d : Disk α} (h : d.Sound) (hnone : ∀ k, d.writers k = none) (k : ℕ)
    (data : List α) : (d.createTemp k data).Sound := by
  have honly : ∀ k' w, (d.createTemp k data).writers k' = some w →
      k' = k ∧ w = ⟨d.tempFile, data, 0⟩ := by
    intro k' w hw
    change Function.update d.writers k _ k' = some w at hw
    by_cases hk : k' = k
    · subst hk
      rw [Function.update_self] at hw
      exact ⟨rfl, (Option.some.inj hw).symm⟩
    · rw [Function.update_of_ne hk, hnone] at hw
      cases hw
  refine ⟨?_, ?_, ?_, ?_, ?_⟩
  · intro f hf
    exact lt_of_lt_of_le (h.target f hf) (le_max_left _ _)
  · intro f hf
    rw [← Option.some.inj hf]
    exact lt_of_lt_of_le (Nat.lt_succ_self _) (le_max_right _ _)
  · intro f hf htemp
    rw [← Option.some.inj htemp] at hf
    exact h.tempFile_ne hf
  · intro k₁ k₂ h₁ h₂
    obtain ⟨w₁, hw₁⟩ := Option.ne_none_iff_exists'.1 h₁
    obtain ⟨w₂, hw₂⟩ := Option.ne_none_iff_exists'.1 h₂
    exact (honly k₁ w₁ hw₁).1.trans (honly k₂ w₂ hw₂).1.symm
  · intro k' w hw
    obtain ⟨rfl, rfl⟩ := honly k' w hw
    exact ⟨rfl, Function.update_self _ _ _, Nat.zero_le _⟩

theorem Sound.writePiece {d : Disk α} (h : d.Sound) (gap : α) {k : ℕ} {w : Writer α}
    (hw : d.writers k = some w) (n : ℕ) : (d.writePiece gap k w n).Sound := by
  obtain ⟨htemp, hcontent, hpos⟩ := h.written k w hw
  have honly : ∀ k' w', (d.writePiece gap k w n).writers k' = some w' →
      k' = k ∧ w' = w.advance n := by
    intro k' w' hw'
    change Function.update d.writers k _ k' = some w' at hw'
    by_cases hk : k' = k
    · subst hk
      rw [Function.update_self] at hw'
      exact ⟨rfl, (Option.some.inj hw').symm⟩
    · rw [Function.update_of_ne hk] at hw'
      exact absurd (h.alone k' k (by rw [hw']; simp) (by rw [hw]; simp)) hk
  refine ⟨h.target, h.temp, h.apart, ?_, ?_⟩
  · intro k₁ k₂ h₁ h₂
    obtain ⟨w₁, hw₁⟩ := Option.ne_none_iff_exists'.1 h₁
    obtain ⟨w₂, hw₂⟩ := Option.ne_none_iff_exists'.1 h₂
    exact (honly k₁ w₁ hw₁).1.trans (honly k₂ w₂ hw₂).1.symm
  · intro k' w' hw'
    obtain ⟨rfl, rfl⟩ := honly k' w' hw'
    refine ⟨htemp, ?_, w.advance_pos_le n hpos⟩
    have hend : overwrite gap (d.contents w.file) w.pos (w.piece n) =
        d.contents w.file ++ w.piece n := by
      have hlength : (d.contents w.file).length = w.pos := by
        rw [hcontent, List.length_take, Nat.min_eq_left hpos]
      have happend := overwrite_at_end gap (d.contents w.file) (w.piece n)
      rwa [hlength] at happend
    have hnew : (d.writePiece gap k' w n).contents w.file =
        overwrite gap (d.contents w.file) w.pos (w.piece n) := Function.update_self _ _ _
    exact hnew.trans (by rw [hend, hcontent]; exact (w.take_advance n).symm)

theorem renameTemp_of_temp {d : Disk α} {f : ℕ} (h : d.temp = some f) (k : ℕ) :
    d.renameTemp k = { d.setWriter k none with target := some f, temp := none } := by
  rw [renameTemp, h]

theorem Sound.renameTemp {d : Disk α} (h : d.Sound) {k : ℕ} {w : Writer α}
    (hw : d.writers k = some w) : (d.renameTemp k).Sound := by
  obtain ⟨htemp, -, -⟩ := h.written k w hw
  have hgone : ∀ k', Function.update d.writers k none k' = none := by
    intro k'
    by_cases hk : k' = k
    · subst hk
      exact Function.update_self _ _ _
    · rw [Function.update_of_ne hk]
      by_contra hsome
      exact hk (h.alone k' k hsome (by rw [hw]; simp))
  rw [renameTemp_of_temp htemp]
  refine ⟨?_, ?_, ?_, ?_, ?_⟩
  · intro f hf
    exact h.temp f (htemp.trans hf)
  · intro f hf
    cases hf
  · intro f hf hno
    cases hno
  · intro k₁ k₂ h₁ h₂
    exact absurd (hgone k₁) h₁
  · intro k' w' hw'
    exact absurd ((hgone k').symm.trans hw') (by simp)

/-- Turn by turn the disk does what the shelf does. -/
theorem step_shelf {d : Disk α} (h : d.Sound) (gap : α) {a : Action α} (ha : d.TakesTurns a) :
    (d.step gap a).Sound ∧ (d.step gap a).shelf = d.shelf.step a := by
  have hjob : ∀ k, d.shelf.jobs k = (d.writers k).map fun w => (w.data, w.pos) := fun _ => rfl
  cases a with
  | create k data =>
      have hk := ha k
      have hread : (d.createTemp k data).read = d.read := read_update rfl rfl h.tempFile_ne
      rw [step, hk, Shelf.step, hjob, hk]
      refine ⟨h.createTemp ha k data, ?_⟩
      have hset := d.shelf_setWriter k (some ⟨d.tempFile, data, 0⟩)
      have hjobs := congrArg Shelf.jobs hset
      exact congrArg₂ Shelf.mk hread hjobs
  | write k n =>
      rw [step, Shelf.step, hjob]
      cases hw : d.writers k with
      | none => exact ⟨h, rfl⟩
      | some w =>
          obtain ⟨htemp, -, -⟩ := h.written k w hw
          have hne : d.target ≠ some w.file := fun ht => h.apart _ ht htemp
          have hread : (d.writePiece gap k w n).read = d.read := read_update rfl rfl hne
          refine ⟨h.writePiece gap hw n, ?_⟩
          have hset := d.shelf_setWriter k (some (w.advance n))
          exact congrArg₂ Shelf.mk hread (congrArg Shelf.jobs hset)
  | rename k =>
      rw [step, Shelf.step, hjob]
      cases hw : d.writers k with
      | none => exact ⟨h, rfl⟩
      | some w =>
          obtain ⟨htemp, hcontent, hpos⟩ := h.written k w hw
          dsimp only [Option.map]
          by_cases hdone : w.Done
          · rw [if_pos hdone, if_pos (show w.data.length ≤ w.pos from hdone)]
            refine ⟨h.renameTemp hw, ?_⟩
            have hset := d.shelf_setWriter k none
            have hread : (d.renameTemp k).read = some w.data := by
              rw [renameTemp_of_temp htemp]
              change some (d.contents w.file) = _
              rw [hcontent, List.take_of_length_le hdone]
            have hjobs : (d.renameTemp k).shelf.jobs = (d.setWriter k none).shelf.jobs := by
              rw [renameTemp_of_temp htemp]
              rfl
            exact congrArg₂ Shelf.mk hread (hjobs.trans (congrArg Shelf.jobs hset))
          · rw [if_neg hdone, if_neg (show ¬ w.data.length ≤ w.pos from hdone)]
            exact ⟨h, rfl⟩
  | abandon k => exact ⟨h.setWriter_none k, d.shelf_setWriter k none⟩
  | crash =>
      refine ⟨⟨h.target, h.temp, h.apart, fun k k' hk => absurd rfl hk, fun k w hw => ?_⟩, rfl⟩
      cases hw

section Overlap

variable (gap : α) (d : Disk α)

theorem step_create {k : ℕ} (h : d.writers k = none) (data : List α) :
    d.step gap (.create k data) = d.createTemp k data := by
  rw [step, h]

theorem step_write {k : ℕ} {w : Writer α} (h : d.writers k = some w) (n : ℕ) :
    d.step gap (.write k n) = d.writePiece gap k w n := by
  rw [step, h]

theorem step_rename {k : ℕ} {w : Writer α} (h : d.writers k = some w) (hdone : w.Done) :
    d.step gap (.rename k) = d.renameTemp k := by
  rw [step, h]
  exact if_pos hdone

end Overlap

theorem piece_all (f : ℕ) (data : List α) :
    (⟨f, data, 0⟩ : Writer α).piece data.length = data := by
  rw [Writer.piece, List.drop_zero, List.take_length]

theorem done_advance_all (f : ℕ) (data : List α) :
    (Writer.advance ⟨f, data, 0⟩ data.length).Done := by
  change data.length ≤ 0 + _
  rw [piece_all, Nat.zero_add]

/-- The second of two writers opens the temporary file before the first has written. -/
theorem exists_first {d : Disk α} (h : ∀ k, d.writers k = none) (gap : α) {k l : ℕ} (hkl : k ≠ l)
    (a b : List α) :
    ∃ f d', run (step gap) d [.create k a, .create l b, .write k a.length] = d' ∧
      d'.writers k = some (Writer.advance ⟨f, a, 0⟩ a.length) ∧
      d'.writers l = some ⟨f, b, 0⟩ ∧ d'.temp = some f ∧ d'.contents f = a := by
  have hl : (d.createTemp k a).writers l = none :=
    (Function.update_of_ne hkl.symm _ _).trans (h l)
  -- both writers are on the one temporary file
  have hk₂ : ((d.createTemp k a).createTemp l b).writers k = some ⟨d.tempFile, a, 0⟩ :=
    (Function.update_of_ne hkl _ _).trans (Function.update_self _ _ _)
  have hempty : ((d.createTemp k a).createTemp l b).contents d.tempFile = [] :=
    Function.update_self _ _ _
  refine ⟨d.tempFile, _, rfl, ?_⟩
  rw [run_cons, step_create gap d (h k), run_cons, step_create gap _ hl, run_cons,
    step_write gap _ hk₂, run_nil]
  refine ⟨Function.update_self _ _ _, ?_, rfl, ?_⟩
  · exact (Function.update_of_ne hkl.symm _ _).trans (Function.update_self _ _ _)
  · refine (Function.update_self _ _ _).trans ?_
    rw [piece_all, hempty, overwrite_front, List.drop_nil, List.append_nil]

/-- The first has renamed it, and the second goes on writing to the target. -/
theorem exists_second {d : Disk α} (gap : α) {k l f : ℕ} (hkl : k ≠ l) {a : List α} (b : List α)
    (hl : d.writers l = some ⟨f, b, 0⟩) (htemp : d.temp = some f) (hcontent : d.contents f = a) :
    ∃ d', (d.renameTemp k).step gap (.write l b.length) = d' ∧
      d'.writers l = some (Writer.advance ⟨f, b, 0⟩ b.length) ∧ d'.temp = none ∧
      d'.read = some (b ++ a.drop b.length) := by
  rw [renameTemp_of_temp htemp]
  generalize hd' : ({ d.setWriter k none with target := some f, temp := none } : Disk α) = d₁
  have hl₁ : d₁.writers l = some ⟨f, b, 0⟩ := by
    rw [← hd']
    exact (Function.update_of_ne hkl.symm _ _).trans hl
  refine ⟨_, rfl, ?_⟩
  rw [step_write gap _ hl₁]
  subst hd'
  refine ⟨Function.update_self _ _ _, rfl, ?_⟩
  change some (Function.update d.contents f _ f) = _
  rw [Function.update_self, piece_all]
  change some (overwrite gap (d.contents f) 0 b) = _
  rw [hcontent, overwrite_front]

end Disk

end FileReplacement

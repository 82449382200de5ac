import PointScope.Proofs.Frame.Clear

/-! Frames that differ in a region of their pixels only. A drawing inside the region keeps this, and
so does the same drawing on both frames, wherever it is: what is plotted on a pixel reads nothing
but that pixel. -/
namespace PointScope.Frame

variable {region region' : Pixel → Prop} {f g h : Frame} {x y : Nat}

theorem Alike.symm (fg : f.Alike g) : g.Alike f where
  width := fg.width.symm
  height := fg.height.symm
  bytes := fg.bytes.symm
  padding i behind := by
    rw [fg.rowBytes, fg.stride] at behind
    exact (fg.padding i behind).symm

/-- A frame that shows the same as another outside a region of pixels. -/
structure ChangesOnly (region : Pixel → Prop) (f g : Frame) : Prop where
  alike : f.Alike g
  kept : ∀ x y : Nat, ¬region ⟨x, y⟩ → f.Holds x y → g.pixel? x y = f.pixel? x y

theorem ChangesOnly.refl (f : Frame) : ChangesOnly region f f := ⟨.refl f, fun _ _ _ _ => rfl⟩

theorem ChangesOnly.trans (fg : ChangesOnly region f g) (gh : ChangesOnly region g h) :
    ChangesOnly region f h where
  alike := fg.alike.trans gh.alike
  kept x y outside held := by
    rw [gh.kept x y outside (fg.alike.holds.mpr held), fg.kept x y outside held]

theorem ChangesOnly.mono (fg : ChangesOnly region f g) (within : ∀ p, region p → region' p) :
    ChangesOnly region' f g where
  alike := fg.alike
  kept x y outside held := fg.kept x y (fun mem => outside (within _ mem)) held

theorem ChangesOnly.foldl {step : Frame → α → Frame} {as : List α}
    (changes : ∀ (f : Frame), ∀ a ∈ as, ChangesOnly region f (step f a)) (f : Frame) :
    ChangesOnly region f (as.foldl step f) := by
  induction as generalizing f with
  | nil => exact .refl f
  | cons a as ih =>
    apply (changes f a List.mem_cons_self).trans
    apply ih
    intro g b mem
    exact changes g b (List.mem_cons_of_mem a mem)

/-! ### Inside the region -/

theorem changesOnly_plot {p : Pixel} (within : region p) (f : Frame) (c : Rgba) :
    ChangesOnly region f (f.plot p c) where
  alike := f.alike_plot p c
  kept x y outside held := by
    rw [pixel?_plot held, if_neg]
    rintro rfl
    exact outside within

theorem changesOnly_plotAll {ps : List Pixel} (within : ∀ p ∈ ps, region p) (f : Frame) (c : Rgba) :
    ChangesOnly region f (f.plotAll ps c) :=
  .foldl (fun f p mem => changesOnly_plot (within p mem) f c) f

/-! ### On both frames -/

/-- Differences do not spread: the same pixels plotted on both frames are the same wherever they
were. -/
theorem ChangesOnly.plotAll (fg : ChangesOnly region f g) (ps : List Pixel) (c : Rgba) :
    ChangesOnly region (f.plotAll ps c) (g.plotAll ps c) where
  alike := (f.alike_plotAll ps c).symm.trans (fg.alike.trans (g.alike_plotAll ps c))
  kept x y outside held := by
    have before := (f.alike_plotAll ps c).holds.mp held
    rw [pixel?_plotAll ps (fg.alike.holds.mpr before), pixel?_plotAll ps before,
      fg.kept x y outside before]

/-! ### Pixels beyond the buffer -/

theorem colorAt_of_le {i : Nat} (beyond : f.bytes.size ≤ i) : f.colorAt i = ⟨0, 0, 0, 0⟩ := by
  simp only [colorAt, byte]
  simp (disch := omega) only [dif_neg]

/-- A buffer of whole colors has a pixel with all of its bytes or has none of them, so frames agree
outside the region on the pixels that they do not hold as well. -/
theorem ChangesOnly.pixel?_eq (fg : ChangesOnly region f g) (colors : 4 ∣ f.bytes.size)
    (outside : ¬region ⟨x, y⟩) : g.pixel? x y = f.pixel? x y := by
  by_cases inside : x < f.width.toNat ∧ y < f.height.toNat
  · by_cases fits : f.offset x y + 4 ≤ f.bytes.size
    · exact fg.kept x y outside ⟨inside.1, inside.2, fits⟩
    · have rows : 4 ∣ y * f.stride :=
        Nat.dvd_mul_left_of_dvd (Nat.dvd_trans (by decide) f.blockBytes_dvd_stride) y
      have beyond : f.bytes.size ≤ f.offset x y := by
        rw [offset] at *
        omega
      rw [pixel?, pixel?, fg.alike.width, fg.alike.height, if_pos inside, if_pos inside,
        fg.alike.offset, colorAt_of_le beyond, colorAt_of_le (fg.alike.bytes ▸ beyond)]
  · rw [pixel?, pixel?, fg.alike.width, fg.alike.height, if_neg inside, if_neg inside]

end PointScope.Frame

import PointScope.Proofs.Draw.Line
import Mathlib.Data.Int.Order.Lemmas
import Mathlib.Data.Set.Card

/-! Thick lines. The copies of a line are its path moved by the offsets of a disc, none of them left
out and none taken twice, so a pixel is plotted once for each offset that carries the path to it. -/
namespace PointScope.Draw.Line

variable {l : Line} {f : Frame} {radius : Nat}

/-! ### Offsets -/

theorem mem_around {n : Nat} {i : Int} : i ∈ around n ↔ -(n : Int) ≤ i ∧ i ≤ n := by
  simp only [around, List.mem_map, List.mem_range]
  constructor
  · rintro ⟨k, bound, rfl⟩
    omega
  · intro bounds
    exact ⟨(i + n).toNat, by omega, by omega⟩

theorem around_nodup (n : Nat) : (around n).Nodup := by
  refine List.Nodup.map (fun i j same => ?_) List.nodup_range
  exact Int.ofNat.inj ((Int.sub_left_inj _).mp same)

/-- An offset of a disc is not longer than its radius along either axis. -/
theorem le_of_mul_self_add_le {n other : Int}
    (near : n * n + other * other ≤ (radius * radius : Nat)) : -(radius : Int) ≤ n ∧ n ≤ radius := by
  have square : n * n ≤ (radius : Int) * radius := by
    have := mul_self_nonneg other
    omega
  have := Int.natAbs_le_iff_mul_self_le.mpr square
  omega

theorem mem_discOffsets {d : Int × Int} :
    d ∈ discOffsets radius ↔ d.1 * d.1 + d.2 * d.2 ≤ (radius * radius : Nat) := by
  obtain ⟨dx, dy⟩ := d
  simp only [discOffsets, List.mem_flatMap, List.mem_filter, List.mem_map, decide_eq_true_eq]
  constructor
  · rintro ⟨_, _, _, near⟩
    exact near
  · intro near
    have wide := mem_around.mpr (le_of_mul_self_add_le near)
    have tall := mem_around.mpr (le_of_mul_self_add_le (Int.add_comm _ _ ▸ near))
    exact ⟨dy, tall, ⟨dx, wide, rfl⟩, near⟩

theorem discOffsets_nodup (radius : Nat) : (discOffsets radius).Nodup := by
  refine List.nodup_flatMap.mpr ⟨fun dy _ => ?_, (around_nodup radius).imp fun ne d here there => ?_⟩
  · refine .filter _ (.map (fun dx dx' same => ?_) (around_nodup radius))
    exact congrArg Prod.fst same
  · obtain ⟨_, _, rfl⟩ := List.mem_map.mp (List.mem_filter.mp here).1
    obtain ⟨_, _, same⟩ := List.mem_map.mp (List.mem_filter.mp there).1
    exact ne (congrArg Prod.snd same).symm

/-- The line itself stands for the offset that is left out of its copies. -/
theorem perm_discOffsets (radius : Nat) :
    ((0, 0) :: (discOffsets radius).filter (· != (0, 0))).Perm (discOffsets radius) := by
  rw [← (discOffsets_nodup radius).erase_eq_filter]
  have center : ((0, 0) : Int × Int) ∈ discOffsets radius := mem_discOffsets.mpr (Int.natCast_nonneg _)
  exact (List.perm_cons_erase center).symm

/-! ### Copies -/

/-- The coordinates of both ends can be moved by a distance without leaving their range. -/
def HasRoom (l : Line) (distance : Nat) : Prop :=
  ∀ n ∈ [l.start.x, l.start.y, l.stop.x, l.stop.y],
    Screen.least ≤ n - distance ∧ n + distance ≤ Screen.greatest

instance (l : Line) (distance : Nat) : Decidable (l.HasRoom distance) :=
  inferInstanceAs (Decidable (∀ n ∈ _, _))

def moved (d : Int × Int) (p : Pixel) : Pixel := ⟨p.x + d.1, p.y + d.2⟩

theorem moved_injective (d : Int × Int) : Function.Injective (moved d) := by
  rintro ⟨x, y⟩ ⟨x', y'⟩ same
  simp only [moved, Pixel.mk.injEq, Int.add_left_inj] at same ⊢
  exact same

theorem moved_eq_iff {d : Int × Int} {p q : Pixel} : moved d q = p ↔ q = ⟨p.x - d.1, p.y - d.2⟩ := by
  obtain ⟨x, y⟩ := p
  obtain ⟨x', y'⟩ := q
  simp only [moved, Pixel.mk.injEq]
  omega

theorem heading_add (start stop n : Int) : heading (start + n) (stop + n) = heading start stop := by
  simp only [heading, Int.add_lt_add_iff_right]

/-- The path of a line between moved ends is the moved path. -/
theorem pixels_moved (l : Line) (d : Int × Int) :
    (Line.mk (moved d l.start) (moved d l.stop)).pixels = l.pixels.map (moved d) := by
  have dx : (Line.mk (moved d l.start) (moved d l.stop)).dx = l.dx := by
    simp only [Line.dx, moved, Int.add_sub_add_right]
  have dy : (Line.mk (moved d l.start) (moved d l.stop)).dy = l.dy := by
    simp only [Line.dy, moved, Int.add_sub_add_right]
  simp only [pixels, length, dx, dy, List.map_map]
  refine List.map_congr_left fun i _ => ?_
  simp only [Function.comp_apply, pixel, isFlat, dx, dy]
  by_cases flat : l.dy ≤ l.dx
  all_goals
    simp only [flat, decide_true, decide_false, if_true, Bool.false_eq_true, if_false, moved, heading_add,
      Pixel.mk.injEq]
    omega

/-- A line is moved as a whole where its ends have room. -/
theorem shift_eq_moved (room : l.HasRoom radius) {d : Int × Int} (mem : d ∈ discOffsets radius) :
    l.shift d.1 d.2 = ⟨moved d l.start, moved d l.stop⟩ := by
  simp only [HasRoom, List.forall_mem_cons] at room
  obtain ⟨startX, startY, stopX, stopY, _⟩ := room
  have near := mem_discOffsets.mp mem
  have wide := le_of_mul_self_add_le near
  have tall := le_of_mul_self_add_le (Int.add_comm _ _ ▸ near)
  simp only [shift, moved]
  rw [Screen.saturate_of_mem, Screen.saturate_of_mem, Screen.saturate_of_mem, Screen.saturate_of_mem]
  all_goals omega

/-! ### Stamps -/

theorem visited_alike {g : Frame} (alike : f.Alike g) (l : Line) : l.visited g = l.visited f := by
  rw [visited_eq_filter, visited_eq_filter, funext alike.contains]

/-- The pixels that drawing the line with a thickness visits, in order. -/
def stamps (l : Line) (f : Frame) (thickness : Nat) : List Pixel :=
  l.visited f ++ ((discOffsets (thickness / 2)).filter (· != (0, 0))).flatMap fun d =>
    (l.shift d.1 d.2).visited f

theorem foldl_draw_eq_plotAll (l : Line) (f : Frame) (c : Rgba) (offsets : List (Int × Int)) :
    offsets.foldl (fun f d => (l.shift d.1 d.2).draw f c) f =
      f.plotAll (offsets.flatMap fun d => (l.shift d.1 d.2).visited f) c := by
  induction offsets generalizing f with
  | nil => rfl
  | cons d offsets ih =>
    have alike := (l.shift d.1 d.2).alike_draw f c
    rw [List.foldl_cons, ih, List.flatMap_cons, Frame.plotAll_append]
    simp only [visited_alike alike]
    rfl

theorem drawThick_eq_plotAll (l : Line) (f : Frame) (thickness : Nat) (c : Rgba) :
    l.drawThick f thickness c = f.plotAll (l.stamps f thickness) c := by
  have copies := foldl_draw_eq_plotAll l (l.draw f c) c
    ((discOffsets (thickness / 2)).filter (· != (0, 0)))
  simp only [visited_alike (l.alike_draw f c)] at copies
  rw [stamps, Frame.plotAll_append]
  exact copies

/-- The stamps are the path moved by every offset of the disc, as far as the frame contains it. -/
theorem stamps_perm {thickness : Nat} (room : l.HasRoom (thickness / 2)) (f : Frame) :
    (l.stamps f thickness).Perm ((discOffsets (thickness / 2)).flatMap fun d =>
      (l.pixels.map (moved d)).filter f.contains) := by
  -- The line comes first, as the copy for the offset that is left out behind it.
  have copies : l.stamps f thickness =
      ((0, 0) :: (discOffsets (thickness / 2)).filter (· != (0, 0))).flatMap fun d =>
        (l.pixels.map (moved d)).filter f.contains := by
    have unmoved : moved (0, 0) = id := by
      funext p
      simp only [moved, Int.add_zero, id]
    rw [stamps, List.flatMap_cons, unmoved, List.map_id, visited_eq_filter]
    congr 1
    refine List.flatMap_congr fun d mem => ?_
    rw [visited_eq_filter, shift_eq_moved room (List.mem_filter.mp mem).1, pixels_moved]
  rw [copies]
  exact (perm_discOffsets (thickness / 2)).flatMap_right _

/-- A copy takes a pixel once, so a pixel is taken as often as there are copies that take it. -/
theorem count_copies {p : Pixel} (inside : f.contains p = true) (l : Line)
    (offsets : List (Int × Int)) :
    (offsets.flatMap fun d => (l.pixels.map (moved d)).filter f.contains).count p =
      offsets.countP fun d => decide (⟨p.x - d.1, p.y - d.2⟩ ∈ l.pixels) := by
  induction offsets with
  | nil => rfl
  | cons d offsets ih =>
    have copy : p ∈ l.pixels.map (moved d) ↔ ⟨p.x - d.1, p.y - d.2⟩ ∈ l.pixels := by
      simp only [List.mem_map, moved_eq_iff, exists_eq_right]
    rw [List.flatMap_cons, List.count_append, ih, List.countP_cons, List.count_filter inside,
      (l.pixels_nodup.map (moved_injective d)).count, Nat.add_comm]
    simp only [copy, decide_eq_true_eq]

/-- The offsets of a disc that carry the path of the line to a pixel. -/
def sweeps (l : Line) (radius : Nat) (p : Pixel) : Set (Int × Int) :=
  {d | d.1 * d.1 + d.2 * d.2 ≤ (radius * radius : Nat) ∧ ⟨p.x - d.1, p.y - d.2⟩ ∈ l.pixels}

theorem sweeps_eq_coe (l : Line) (radius : Nat) (p : Pixel) :
    l.sweeps radius p =
      ((discOffsets radius).filter fun d => decide (⟨p.x - d.1, p.y - d.2⟩ ∈ l.pixels)).toFinset := by
  ext d
  simp only [sweeps, Set.mem_ofPred_eq, List.coe_toFinset, List.mem_filter, mem_discOffsets,
    decide_eq_true_eq]

theorem finite_sweeps (l : Line) (radius : Nat) (p : Pixel) : (l.sweeps radius p).Finite := by
  rw [sweeps_eq_coe]
  exact Finset.finite_toSet _

theorem ncard_sweeps (l : Line) (radius : Nat) (p : Pixel) :
    (l.sweeps radius p).ncard =
      (discOffsets radius).countP fun d => decide (⟨p.x - d.1, p.y - d.2⟩ ∈ l.pixels) := by
  rw [sweeps_eq_coe, Set.ncard_coe_finset,
    List.toFinset_card_of_nodup ((discOffsets_nodup radius).filter _), List.countP_eq_length_filter]

theorem count_stamps {thickness : Nat} (room : l.HasRoom (thickness / 2)) (f : Frame) (p : Pixel) :
    (l.stamps f thickness).count p =
      if f.contains p then (l.sweeps (thickness / 2) p).ncard else 0 := by
  rw [(stamps_perm room f).count_eq]
  split
  · rename_i inside
    rw [count_copies inside, ncard_sweeps]
  · rename_i outside
    rw [List.count_eq_zero, List.mem_flatMap]
    rintro ⟨d, _, mem⟩
    exact outside (List.mem_filter.mp mem).2

/-- A line with a thickness is its path swept by the disc whose radius is half of it: a pixel of the
frame is plotted once for every offset of the disc that carries the path to it. An opaque color so paints
the pixels that some offset reaches, any other is laid over a pixel as often as offsets reach it, and
without a copy the line is the plain one. -/
theorem drawThick_sweeps (l : Line) (f : Frame) (thickness : Nat) (c : Rgba)
    (room : l.HasRoom (thickness / 2)) :
    l.drawThick f thickness c = f.plotAll (l.stamps f thickness) c ∧
      (∀ p, (l.sweeps (thickness / 2) p).Finite ∧ (l.stamps f thickness).count p =
        if f.contains p then (l.sweeps (thickness / 2) p).ncard else 0) ∧
      (∀ x y : Nat, f.Holds x y → c.isOpaque = true →
        ((l.sweeps (thickness / 2) ⟨x, y⟩).Nonempty →
          (l.drawThick f thickness c).pixel? x y = some c) ∧
        (l.sweeps (thickness / 2) ⟨x, y⟩ = ∅ →
          (l.drawThick f thickness c).pixel? x y = f.pixel? x y)) ∧
      (∀ x y : Nat, f.Holds x y → c.isOpaque = false →
        (l.drawThick f thickness c).pixel? x y =
          (f.pixel? x y).map c.onto^[(l.sweeps (thickness / 2) ⟨x, y⟩).ncard]) ∧
      (thickness ≤ 1 → l.drawThick f thickness c = l.draw f c) := by
  have painted (x y : Nat) (held : f.Holds x y) : (l.drawThick f thickness c).pixel? x y =
      (f.pixel? x y).map c.covering^[(l.sweeps (thickness / 2) ⟨x, y⟩).ncard] := by
    rw [drawThick_eq_plotAll, Frame.pixel?_plotAll _ held, count_stamps room, if_pos held.contains]
  refine ⟨l.drawThick_eq_plotAll f thickness c, ?_, ?_, ?_, ?_⟩
  · intro p
    exact ⟨l.finite_sweeps _ p, count_stamps room f p⟩
  · intro x y held covers
    constructor
    · intro reached
      obtain ⟨n, times⟩ := Nat.exists_eq_succ_of_ne_zero
        (Nat.ne_of_gt ((Set.ncard_pos (l.finite_sweeps _ _)).mpr reached))
      rw [painted x y held, times, Frame.pixel?_eq_some held, Option.map_some,
        Rgba.iterate_covering_of_isOpaque covers]
    · intro unreached
      rw [painted x y held, unreached, Set.ncard_empty, Function.iterate_zero, Option.map_id_fun, id]
  · intro x y held translucent
    rw [painted x y held, Rgba.covering_of_not_isOpaque translucent]
  · intro thin
    have radius : thickness / 2 = 0 := by omega
    rw [drawThick, radius]
    rfl

/-- Three of the five copies take a pixel on a line that leaves the frame on both sides. -/
theorem drawThick_sweeps_across :
    ∃ f, Frame.new? 3 2 = .ok f ∧
      ((Line.mk ⟨-2, 0⟩ ⟨4, 0⟩).drawThick f 3 ⟨0, 0, 255, 128⟩).pixel? 1 0 =
        (f.pixel? 1 0).map (Rgba.onto ⟨0, 0, 255, 128⟩)^[3] := by
  obtain ⟨f, new, _, _, held⟩ := Frame.exists_whole_new? (by decide : Frame.Allocatable 3 2)
  have three : ((Line.mk ⟨-2, 0⟩ ⟨4, 0⟩).sweeps (3 / 2) ⟨(1 : Nat), (0 : Nat)⟩).ncard = 3 := by
    rw [ncard_sweeps]
    decide
  obtain ⟨_, _, _, translucent, _⟩ :=
    drawThick_sweeps (Line.mk ⟨-2, 0⟩ ⟨4, 0⟩) f 3 ⟨0, 0, 255, 128⟩ (by decide)
  have drawn := translucent 1 0 (held 1 (by decide) 0 (by decide)) (by decide)
  rw [three] at drawn
  exact ⟨f, new, drawn⟩

end PointScope.Draw.Line

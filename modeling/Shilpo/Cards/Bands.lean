import Shilpo.Cards.Placement

/-!
# Bands

A card is drawn on a band: a preview on one along the bar that is as deep as the largest card and
its gaps, a card that stays on all of the monitor but the bar. Where the bar and the card do not
both fit the monitor, the card is moved over the bar; and the band is not deep enough for a preview
that is moved inward beyond another card. Apart from this the card is within its band, and so apart
from the bar (`card_onItsBand_iff`).
-/

namespace Shilpo.Cards

open Config (BarPosition)

/-! ### What is shown -/

/-- The band of a channel. -/
def drawnOn (channel : CardChannel) (input : PlacementInput) : Bounds :=
  match channel with
  | .preview => (computeBandGeometry input).bounds
  | .persistent => (computePersistentBandGeometry input).bounds

/-- Where the bar is. -/
def barStrip (input : PlacementInput) : Bounds :=
  let m := input.monitorBounds
  let thickness := input.barThickness
  match input.barEdge with
  | .top => ⟨m.x, m.y, m.width, thickness⟩
  | .bottom => ⟨m.x, m.y + m.height - thickness, m.width, thickness⟩
  | .left => ⟨m.x, m.y, thickness, m.height⟩
  | .right => ⟨m.x + m.width - thickness, m.y, thickness, m.height⟩

/-- The card is within the band. -/
structure Within (card band : Bounds) : Prop where
  left : band.x ≤ card.x
  right : card.x + card.width ≤ band.x + band.width
  top : band.y ≤ card.y
  bottom : card.y + card.height ≤ band.y + band.height

/-- Wherever the card is placed, it is within its band and not over the bar. -/
def OnItsBand (channel : CardChannel) (input : PlacementInput) : Prop :=
  ∀ card band, computePlacement input = .placed card band →
    Within card (drawnOn channel input) ∧ overlaps card (barStrip input) = false

/-! ### Depths -/

/-- How far the monitor reaches inward from the edge of the bar. -/
def reach (input : PlacementInput) : ℚ :=
  match input.barEdge with
  | .top | .bottom => input.monitorBounds.height
  | .left | .right => input.monitorBounds.width

/-- How deep the requested card is. -/
def requestedDepth (input : PlacementInput) : ℚ :=
  match input.barEdge with
  | .top | .bottom => input.requestedSize.height
  | .left | .right => input.requestedSize.width

/-- How deep the band of a preview is. -/
def bandDepth (input : PlacementInput) : ℚ :=
  match input.barEdge with
  | .top | .bottom => maxCardDepthTall
  | .left | .right => maxCardDepthWide

/-- How deep a card is. -/
def depth (input : PlacementInput) (card : Bounds) : ℚ :=
  match input.barEdge with
  | .top | .bottom => card.height
  | .left | .right => card.width

/-- How far from the edge of the bar a card begins. -/
def nearEdge (input : PlacementInput) (card : Bounds) : ℚ :=
  let m := input.monitorBounds
  match input.barEdge with
  | .top => card.y - m.y
  | .bottom => m.y + m.height - (card.y + card.height)
  | .left => card.x - m.x
  | .right => m.x + m.width - (card.x + card.width)

/-- How far from the edge of the bar another card ends. -/
def farEdge (input : PlacementInput) (collision : Bounds) : ℚ :=
  let m := input.monitorBounds
  match input.barEdge with
  | .top => collision.y + collision.height - m.y
  | .bottom => m.y + m.height - collision.y
  | .left => collision.x + collision.width - m.x
  | .right => m.x + m.width - collision.x

/-- The card overlaps the other and is not moved to either side of it. -/
def GoesInward (input : PlacementInput) (collision : Bounds) : Prop :=
  overlaps (openedCard input) collision = true ∧
    takesSide (alongSides (openedCard input) collision input safeInset sourceGap).1 collision input
      safeInset = false ∧
    takesSide (alongSides (openedCard input) collision input safeInset sourceGap).2 collision input
      safeInset = false

instance (input : PlacementInput) (collision : Bounds) : Decidable (GoesInward input collision) :=
  inferInstanceAs (Decidable (_ ∧ _ ∧ _))

/-- How far from the edge of the bar the card is to begin: a gap behind the bar, or behind the card
beyond which it is moved. -/
def wantedDepth (input : PlacementInput) : ℚ :=
  match input.collisionBounds with
  | some collision =>
    if GoesInward input collision then farEdge input collision + sourceGap
    else input.barThickness + sourceGap
  | none => input.barThickness + sourceGap

/-- The size and the safe area are not below the minimum. -/
def Usable (input : PlacementInput) : Prop :=
  minUsableWidth ≤ min input.requestedSize.width (input.monitorBounds.width - safeInset * 2) ∧
    minUsableHeight ≤ min input.requestedSize.height (input.monitorBounds.height - safeInset * 2)

instance (input : PlacementInput) : Decidable (Usable input) :=
  inferInstanceAs (Decidable (_ ∧ _))

/-- The bar is no thicker than the inset, or there is room for it, the card and the inset. -/
def LeavesRoom (input : PlacementInput) : Prop :=
  input.barThickness ≤ safeInset ∨
    input.barThickness + requestedDepth input + safeInset ≤ reach input

/-- The monitor is not deeper than the band and the inset, or the card is to begin where its end is
within the band. -/
def StaysNear (input : PlacementInput) : Prop :=
  reach input ≤ input.barThickness + bandDepth input + safeInset ∨
    max (wantedDepth input) safeInset + min (requestedDepth input) (reach input - safeInset * 2) ≤
      input.barThickness + bandDepth input

/-! ### The axis of the bar -/

section

variable {start length side pos : ℚ}

/-- Where a side begins that is moved to a depth. -/
def settle (length side wanted : ℚ) : ℚ :=
  min (max wanted safeInset) (max (length - safeInset - side) safeInset)

/-- A side that is moved into the safe area, told from where the area starts. -/
theorem clampAxis_sub_eq_settle :
    clampAxis start length safeInset side pos - start = settle length side (pos - start) := by
  rw [settle, clampAxis, safeInset]
  grind

/-- The same side told from where the area ends, and shrunk. -/
theorem sub_clampAxis_eq_settle :
    start + length - (clampAxis start length safeInset side pos +
      min side (length - safeInset * 2)) = settle length side (start + length - (pos + side)) := by
  rw [settle, clampAxis, safeInset]
  grind

theorem clampAxis_clampAxis {safe : ℚ} :
    clampAxis start length safe side (clampAxis start length safe side pos) =
      clampAxis start length safe side pos := by
  conv_lhs => rw [clampAxis]
  rw [max_eq_left le_clampAxis, min_eq_left clampAxis_le]

/-- Room is left up to a depth if a side that is moved to it is not moved back before it. -/
theorem le_settle_iff {thickness wanted : ℚ} (h : thickness ≤ max wanted safeInset) :
    thickness ≤ settle length side wanted ↔
      thickness ≤ safeInset ∨ thickness + side + safeInset ≤ length := by
  rw [settle, le_min_iff, and_iff_right h, le_max_iff, or_comm]
  refine or_congr Iff.rfl ⟨fun hroom => ?_, fun hroom => ?_⟩
  · linarith
  · linarith

/-- Where a shrunk side ends that has been moved to a depth. -/
theorem settle_add_le_iff {wanted far : ℚ} :
    settle length side wanted + min side (length - safeInset * 2) ≤ far ↔
      length ≤ far + safeInset ∨
        max wanted safeInset + min side (length - safeInset * 2) ≤ far := by
  have hend : max (length - safeInset - side) safeInset + min side (length - safeInset * 2) =
      length - safeInset := by
    rcases le_total side (length - safeInset * 2) with h | h
    · rw [min_eq_left h, max_eq_left (by linarith)]
      ring
    · rw [min_eq_right h, max_eq_right (by linarith)]
      ring
  rw [settle, min_add, hend, min_le_iff, or_comm, sub_le_iff_le_add]

end

/-! ### The depth of a placed card -/

@[simp]
theorem depth_shrinkToMonitor (input : PlacementInput) (card : Bounds) :
    depth input (shrinkToMonitor card input.monitorBounds safeInset) =
      min (depth input card) (reach input - safeInset * 2) := by
  simp only [depth, reach, shrinkToMonitor]
  cases input.barEdge <;> rfl

@[simp]
theorem depth_clampToMonitor (input : PlacementInput) (card : Bounds) :
    depth input (clampToMonitor card input.monitorBounds safeInset) = depth input card := by
  simp only [depth, clampToMonitor]

theorem nearEdge_shrinkToMonitor (input : PlacementInput) (card : Bounds) :
    nearEdge input (shrinkToMonitor (clampToMonitor card input.monitorBounds safeInset)
        input.monitorBounds safeInset) =
      settle (reach input) (depth input card) (nearEdge input card) := by
  rw [(clamped_clampToMonitor card input.monitorBounds).shrinkToMonitor_eq]
  simp only [nearEdge, reach, depth, clampToMonitor]
  cases input.barEdge
  · exact clampAxis_sub_eq_settle
  · exact sub_clampAxis_eq_settle
  · exact clampAxis_sub_eq_settle
  · exact sub_clampAxis_eq_settle

theorem clampToMonitor_clampToMonitor (card monitor : Bounds) :
    clampToMonitor (clampToMonitor card monitor safeInset) monitor safeInset =
      clampToMonitor card monitor safeInset := by
  simp only [clampToMonitor, clampAxis_clampAxis]

/-- A card that has been moved into the safe area is not moved again. -/
theorem settle_nearEdge_clampToMonitor (input : PlacementInput) (card : Bounds) :
    settle (reach input) (depth input card)
        (nearEdge input (clampToMonitor card input.monitorBounds safeInset)) =
      settle (reach input) (depth input card) (nearEdge input card) := by
  have htwice := nearEdge_shrinkToMonitor input (clampToMonitor card input.monitorBounds safeInset)
  rw [clampToMonitor_clampToMonitor, nearEdge_shrinkToMonitor, depth_clampToMonitor] at htwice
  exact htwice.symm

variable {card : Bounds}

/-- A card that fits is told from either side in the same way. -/
theorem nearEdge_clampToMonitor {input : PlacementInput}
    (hfits : depth input card ≤ reach input - safeInset * 2) :
    nearEdge input (clampToMonitor card input.monitorBounds safeInset) =
      settle (reach input) (depth input card) (nearEdge input card) := by
  rw [← nearEdge_shrinkToMonitor,
    (clamped_clampToMonitor card input.monitorBounds).shrinkToMonitor_eq]
  simp only [nearEdge, reach, depth, clampToMonitor] at hfits ⊢
  cases hedge : input.barEdge
  all_goals
    simp only [hedge] at hfits ⊢
  · rw [min_eq_left hfits]
  · rw [min_eq_left hfits]

@[simp]
theorem nearEdge_initialPlacement (input : PlacementInput) :
    nearEdge input (initialPlacement input) = input.barThickness + sourceGap := by
  simp only [nearEdge, initialPlacement]
  cases input.barEdge
  all_goals
    simp only
    ring

@[simp]
theorem depth_initialPlacement (input : PlacementInput) :
    depth input (initialPlacement input) = requestedDepth input := by
  simp only [depth, requestedDepth, initialPlacement]
  cases input.barEdge <;> rfl

@[simp]
theorem depth_openedCard (input : PlacementInput) :
    depth input (openedCard input) = requestedDepth input := by
  rw [openedCard, logicalMonitorBounds_eq, depth_clampToMonitor, depth_initialPlacement]

@[simp]
theorem nearEdge_inwardPlace (input : PlacementInput) (card collision : Bounds) :
    nearEdge input (inwardPlace card collision input.barEdge sourceGap) =
      farEdge input collision + sourceGap := by
  simp only [nearEdge, farEdge, inwardPlace]
  cases input.barEdge
  all_goals
    simp only
    ring

@[simp]
theorem depth_inwardPlace (input : PlacementInput) (card collision : Bounds) :
    depth input (inwardPlace card collision input.barEdge sourceGap) = depth input card := by
  simp only [depth, inwardPlace]
  cases input.barEdge <;> rfl

/-- Beside another card the card is as far from the bar as before, and as deep. -/
theorem alongSides_same (input : PlacementInput) (card collision : Bounds) :
    ∀ side, (side = (alongSides card collision input safeInset sourceGap).1 ∨
        side = (alongSides card collision input safeInset sourceGap).2) →
      nearEdge input side = nearEdge input card ∧ depth input side = depth input card := by
  intro side hside
  simp only [nearEdge, depth, alongSides] at hside ⊢
  cases hedge : input.barEdge
  all_goals
    simp only [hedge] at hside ⊢
    split_ifs at hside
    all_goals
      obtain rfl | rfl := hside
      all_goals exact ⟨rfl, rfl⟩

theorem resolveCollision_of_goesInward {input : PlacementInput} {collision : Bounds}
    (h : GoesInward input collision) :
    resolveCollision (openedCard input) collision input safeInset sourceGap =
      clampToMonitor (inwardPlace (openedCard input) collision input.barEdge sourceGap)
        input.monitorBounds safeInset := by
  obtain ⟨hoverlaps, hprimary, hsecondary⟩ := h
  simp [resolveCollision, hoverlaps, hprimary, hsecondary]

theorem resolveCollision_of_not {input : PlacementInput} {collision : Bounds}
    (h : ¬ GoesInward input collision) :
    resolveCollision (openedCard input) collision input safeInset sourceGap = openedCard input ∨
      ∃ side, (side = (alongSides (openedCard input) collision input safeInset sourceGap).1 ∨
          side = (alongSides (openedCard input) collision input safeInset sourceGap).2) ∧
        resolveCollision (openedCard input) collision input safeInset sourceGap =
          clampToMonitor side input.monitorBounds safeInset := by
  simp only [resolveCollision]
  split_ifs with hfree hprimary hsecondary
  · exact .inl rfl
  · exact .inr ⟨_, .inl rfl, rfl⟩
  · exact .inr ⟨_, .inr rfl, rfl⟩
  · exact absurd ⟨by simpa using hfree, by simpa using hprimary, by simpa using hsecondary⟩ h

/-- **How far from the edge of the bar a card is placed.** -/
theorem nearEdge_placed (input : PlacementInput) :
    nearEdge input (shrinkToMonitor (movedCard input) input.monitorBounds safeInset) =
      settle (reach input) (requestedDepth input) (wantedDepth input) := by
  have hopened : settle (reach input) (requestedDepth input) (nearEdge input (openedCard input)) =
      settle (reach input) (requestedDepth input) (input.barThickness + sourceGap) := by
    have hclamped := settle_nearEdge_clampToMonitor input (initialPlacement input)
    rwa [depth_initialPlacement, nearEdge_initialPlacement, ← logicalMonitorBounds_eq input,
      ← openedCard] at hclamped
  have hstays : nearEdge input (shrinkToMonitor (openedCard input) input.monitorBounds safeInset) =
      settle (reach input) (requestedDepth input) (input.barThickness + sourceGap) := by
    rw [openedCard, logicalMonitorBounds_eq, nearEdge_shrinkToMonitor, depth_initialPlacement,
      nearEdge_initialPlacement]
  rw [movedCard, wantedDepth]
  cases input.collisionBounds with
  | none => exact hstays
  | some collision =>
    simp only
    split_ifs with hinward
    · rw [resolveCollision_of_goesInward hinward, nearEdge_shrinkToMonitor, depth_inwardPlace,
        depth_openedCard, nearEdge_inwardPlace]
    · obtain heq | ⟨side, hside, heq⟩ := resolveCollision_of_not hinward
      · rw [heq, hstays]
      · obtain ⟨hnear, hdepth⟩ := alongSides_same input (openedCard input) collision side hside
        rw [heq, nearEdge_shrinkToMonitor, hnear, hdepth, depth_openedCard, hopened]

/-- A card that overlaps another begins before that one ends. -/
theorem nearEdge_lt_farEdge {input : PlacementInput} {card collision : Bounds}
    (h : overlaps card collision = true) : nearEdge input card < farEdge input collision := by
  simp only [overlaps, Bool.and_eq_true, decide_eq_true_eq] at h
  obtain ⟨⟨⟨hleft, hright⟩, htop⟩, hbottom⟩ := h
  simp only [nearEdge, farEdge]
  cases input.barEdge
  all_goals
    simp only
    linarith

/-- A card that has room beside the bar is not to begin over it. -/
theorem barThickness_le_wanted {input : PlacementInput} (hroom : LeavesRoom input) :
    input.barThickness ≤ max (wantedDepth input) safeInset := by
  obtain hthin | hroom := hroom
  · exact le_max_of_le_right hthin
  have hgap : (0 : ℚ) < sourceGap := by decide
  rw [wantedDepth]
  cases input.collisionBounds with
  | none => exact le_max_of_le_left (by simpa using hgap.le)
  | some collision =>
    simp only
    split_ifs with hinward
    · by_cases hthin : input.barThickness ≤ safeInset
      · exact le_max_of_le_right hthin
      have hfits : depth input (initialPlacement input) ≤ reach input - safeInset * 2 := by
        rw [depth_initialPlacement]
        linarith
      have hbefore : nearEdge input _ < farEdge input _ := nearEdge_lt_farEdge hinward.1
      rw [openedCard, logicalMonitorBounds_eq, nearEdge_clampToMonitor hfits] at hbefore
      have hbar : input.barThickness ≤ settle (reach input) (requestedDepth input)
          (input.barThickness + sourceGap) :=
        (le_settle_iff (le_max_of_le_left (by linarith))).mpr (.inr hroom)
      rw [depth_initialPlacement, nearEdge_initialPlacement] at hbefore
      exact le_max_of_le_left (by linarith)
    · exact le_max_of_le_left (by linarith)

/-! ### Main result -/

theorem barThickness_le_nearEdge_iff (input : PlacementInput) :
    input.barThickness ≤
        nearEdge input (shrinkToMonitor (movedCard input) input.monitorBounds safeInset) ↔
      LeavesRoom input := by
  rw [nearEdge_placed]
  constructor
  · intro h
    have hwanted := h.trans (min_le_left _ _)
    exact (le_settle_iff hwanted).mp h
  · intro hroom
    exact (le_settle_iff (barThickness_le_wanted hroom)).mpr hroom

theorem depth_placed (input : PlacementInput) :
    depth input (shrinkToMonitor (movedCard input) input.monitorBounds safeInset) =
      min (requestedDepth input) (reach input - safeInset * 2) := by
  obtain ⟨hwidth, hheight⟩ := size_movedCard input
  rw [depth_shrinkToMonitor]
  simp only [depth, requestedDepth, hwidth, hheight]

theorem stays_on_band_iff (input : PlacementInput) :
    nearEdge input (shrinkToMonitor (movedCard input) input.monitorBounds safeInset) +
        depth input (shrinkToMonitor (movedCard input) input.monitorBounds safeInset) ≤
      input.barThickness + bandDepth input ↔ StaysNear input := by
  rw [nearEdge_placed, depth_placed, settle_add_le_iff, StaysNear]

/-- A card of the safe area is on its band if it begins behind the bar, and for a preview ends
there. -/
theorem within_drawnOn_iff {channel : CardChannel} {input : PlacementInput}
    (hsafe : InSafeArea input.monitorBounds card) :
    Within card (drawnOn channel input) ↔ input.barThickness ≤ nearEdge input card ∧
      (channel = .preview →
        nearEdge input card + depth input card ≤ input.barThickness + bandDepth input) := by
  obtain ⟨hleft, hright, htop, hbottom⟩ := hsafe
  have hinset : (0 : ℚ) < safeInset := by decide
  simp only [drawnOn, computeBandGeometry, computePersistentBandGeometry, nearEdge, depth,
    bandDepth]
  cases channel
  all_goals
    cases input.barEdge
    all_goals
      simp only [reduceCtorEq, false_implies, and_true, true_implies]
      constructor
      · rintro ⟨hbandLeft, hbandRight, hbandTop, hbandBottom⟩
        simp only at hbandLeft hbandRight hbandTop hbandBottom
        first
        | linarith
        | constructor <;> linarith
      · intro h
        constructor
        all_goals
          simp only
          linarith

/-- A card that begins behind the bar is not over it. -/
theorem overlaps_barStrip {input : PlacementInput}
    (hbehind : input.barThickness ≤ nearEdge input card) :
    overlaps card (barStrip input) = false := by
  rw [Bool.eq_false_iff]
  intro hoverlaps
  simp only [overlaps, Bool.and_eq_true, decide_eq_true_eq] at hoverlaps
  obtain ⟨⟨⟨hleft, hright⟩, htop⟩, hbottom⟩ := hoverlaps
  simp only [nearEdge] at hbehind
  simp only [barStrip] at hleft hright htop hbottom
  cases hedge : input.barEdge
  all_goals
    simp only [hedge] at hbehind hleft hright htop hbottom
    linarith

theorem computePlacement_eq (input : PlacementInput) :
    computePlacement input =
      if Usable input then
        .placed (shrinkToMonitor (movedCard input) input.monitorBounds safeInset)
          (computeBandGeometry input)
      else .suppressed "card shrunk below minimum usable size" := by
  obtain ⟨hwidth, hheight⟩ := size_movedCard input
  have husable : Usable input ↔
      ¬ ((shrinkToMonitor (movedCard input) input.monitorBounds safeInset).width <
          minUsableWidth ∨
        (shrinkToMonitor (movedCard input) input.monitorBounds safeInset).height <
          minUsableHeight) := by
    rw [(clamped_movedCard input).shrinkToMonitor_eq, hwidth, hheight, Usable, not_or, not_lt,
      not_lt]
  rw [computePlacement, logicalMonitorBounds_eq, if_congr husable rfl rfl, ite_not]

/-- What is to be shown of the card that is placed. -/
theorem onItsBand_iff_of_usable {channel : CardChannel} {input : PlacementInput}
    (husable : Usable input) :
    OnItsBand channel input ↔
      Within (shrinkToMonitor (movedCard input) input.monitorBounds safeInset)
          (drawnOn channel input) ∧
        overlaps (shrinkToMonitor (movedCard input) input.monitorBounds safeInset)
          (barStrip input) = false := by
  rw [OnItsBand, computePlacement_eq, if_pos husable]
  constructor
  · intro h
    exact h _ _ rfl
  · intro h card band hcard
    obtain ⟨rfl, -⟩ := PlacementResult.placed.inj hcard
    exact h

/-- **A placed card is shown on its band exactly if there is room for it beside the bar, and for a
preview if it is not moved off the band.** -/
theorem card_onItsBand_iff (channel : CardChannel) (input : PlacementInput) :
    OnItsBand channel input ↔
      (Usable input → LeavesRoom input ∧ (channel = .preview → StaysNear input)) := by
  by_cases husable : Usable input
  · have hwithin := @within_drawnOn_iff _ channel _ (clamped_movedCard input).inSafeArea
    rw [barThickness_le_nearEdge_iff, stays_on_band_iff] at hwithin
    rw [onItsBand_iff_of_usable husable, hwithin, and_iff_left_of_imp]
    · exact ⟨fun h _ => h, fun h => h husable⟩
    · intro h
      exact overlaps_barStrip ((barThickness_le_nearEdge_iff input).mpr h.1)
  · rw [OnItsBand, computePlacement_eq, if_neg husable]
    exact ⟨fun _ h => absurd h husable, fun _ _ _ h => by cases h⟩

/-- On a monitor that stands upright a preview is moved beyond a card that stays, and off its band;
and a card as high as a low monitor covers the bar. -/
theorem card_not_onItsBand :
    ¬ OnItsBand .preview
        { monitorBounds := ⟨0, 0, 1080, 1920⟩
          barEdge := .top
          barThickness := 40
          sourceBounds := ⟨520, 0, 40, 40⟩
          requestedSize := ⟨480, 640⟩
          collisionBounds := some ⟨300, 48, 480, 640⟩
          scale := none } ∧
      ¬ OnItsBand .persistent
        { monitorBounds := ⟨0, 0, 1024, 600⟩
          barEdge := .top
          barThickness := 40
          sourceBounds := ⟨492, 0, 40, 40⟩
          requestedSize := ⟨480, 640⟩
          collisionBounds := none
          scale := none } := by
  constructor
  · intro h
    have hwithin := ((onItsBand_iff_of_usable (by decide +kernel)).mp h).1.bottom
    exact absurd hwithin (by decide +kernel)
  · intro h
    have hapart := ((onItsBand_iff_of_usable (by decide +kernel)).mp h).2
    exact absurd hapart (by decide +kernel)

end Shilpo.Cards

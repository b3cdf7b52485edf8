import Shilpo.Cards.State
import Shilpo.Config.Types

/-!
# Placement of cards

`desktop/shilpo/src/shell/bar/cards/placement.rs`: where a card is shown. It opens inward from the
bar, over the widget that it hangs from, is moved into the safe area of the monitor, moved away from
a card that is there already, and shrunk to what is left. Pixels are rational numbers. The shrinking
moves no card that has been moved into the safe area, and moving one away is tried on either side
and inward, so that a placed card does not overlap the other one if it fits somewhere
(`computePlacement_sound`).
-/

namespace Shilpo.Cards

open Config (BarPosition)

/-! ### The inputs -/

/-- `SAFE_INSET`, what is left free at the edges of the monitor. -/
def safeInset : ℚ := 8

/-- `SOURCE_GAP`, what is left free between a card and the bar or another card. -/
def sourceGap : ℚ := 8

def minUsableWidth : ℚ := 160

def minUsableHeight : ℚ := 96

structure CardSize where
  width : ℚ
  height : ℚ

structure PlacementInput where
  monitorBounds : Bounds
  barEdge : BarPosition
  barThickness : ℚ
  sourceBounds : Bounds
  requestedSize : CardSize
  collisionBounds : Option Bounds
  scale : Option ℚ

/-- `f32::EPSILON`. -/
def floatEpsilon : ℚ := 1 / 2 ^ 23

/-- The bounds of the monitor; they are the same on each branch of the source. -/
def PlacementInput.logicalMonitorBounds (input : PlacementInput) : Bounds :=
  let scale := max (input.scale.getD 1) (1 / 2)
  if |scale - 1| < floatEpsilon then input.monitorBounds
  else if 0 < input.monitorBounds.width then
    { x := input.monitorBounds.x
      y := input.monitorBounds.y
      width := input.monitorBounds.width
      height := input.monitorBounds.height }
  else input.monitorBounds

/-! ### Moving and shrinking -/

/-- Inward from the bar, over the middle of the source. -/
def initialPlacement (input : PlacementInput) : Bounds :=
  let s := input.sourceBounds
  let r := input.requestedSize
  let m := input.monitorBounds
  let overX := s.x + s.width / 2 - r.width / 2
  let overY := s.y + s.height / 2 - r.height / 2
  match input.barEdge with
  | .top => ⟨overX, m.y + input.barThickness + sourceGap, r.width, r.height⟩
  | .bottom =>
    ⟨overX, m.y + m.height - input.barThickness - r.height - sourceGap, r.width, r.height⟩
  | .left => ⟨m.x + input.barThickness + sourceGap, overY, r.width, r.height⟩
  | .right => ⟨m.x + m.width - input.barThickness - r.width - sourceGap, overY, r.width, r.height⟩

/-- A coordinate at which a side of the card is within the safe area, or begins with it. -/
def clampAxis (start length safe side pos : ℚ) : ℚ :=
  min (max pos (start + safe)) (max (start + length - safe - side) (start + safe))

def clampToMonitor (card monitor : Bounds) (safe : ℚ) : Bounds where
  x := clampAxis monitor.x monitor.width safe card.width card.x
  y := clampAxis monitor.y monitor.height safe card.height card.y
  width := card.width
  height := card.height

/-- The coordinate of a side that has been shrunk. -/
def reclampAxis (start length safe side pos : ℚ) : ℚ :=
  max (min (max pos (start + safe)) (start + length - safe - side)) (start + safe)

def shrinkToMonitor (card monitor : Bounds) (safe : ℚ) : Bounds :=
  let w := min card.width (monitor.width - safe * 2)
  let h := min card.height (monitor.height - safe * 2)
  { x := reclampAxis monitor.x monitor.width safe w card.x
    y := reclampAxis monitor.y monitor.height safe h card.y
    width := w
    height := h }

/-! ### Avoiding a card -/

def overlaps (a b : Bounds) : Bool :=
  a.x < b.x + b.width && b.x < a.x + a.width && a.y < b.y + b.height && b.y < a.y + a.height

def fitsHorizontally (card monitor : Bounds) (safe : ℚ) : Bool :=
  monitor.x + safe ≤ card.x && card.x + card.width ≤ monitor.x + monitor.width - safe

def fitsVertically (card monitor : Bounds) (safe : ℚ) : Bool :=
  monitor.y + safe ≤ card.y && card.y + card.height ≤ monitor.y + monitor.height - safe

/-- The sides of the other card along the bar, the one with more space first. -/
def alongSides (card collision : Bounds) (input : PlacementInput) (safe gap : ℚ) :
    Bounds × Bounds :=
  let monitor := input.monitorBounds
  match input.barEdge with
  | .top | .bottom =>
    let rightX := collision.x + collision.width + gap
    let leftX := collision.x - card.width - gap
    let candidateRight := { card with x := rightX }
    let candidateLeft := { card with x := leftX }
    let spaceRight := max (monitor.x + monitor.width - safe - rightX) 0
    let spaceLeft := max (leftX - safe - monitor.x) 0
    if spaceLeft ≤ spaceRight then (candidateRight, candidateLeft)
    else (candidateLeft, candidateRight)
  | .left | .right =>
    let belowY := collision.y + collision.height + gap
    let aboveY := collision.y - card.height - gap
    let candidateBelow := { card with y := belowY }
    let candidateAbove := { card with y := aboveY }
    let spaceBelow := max (monitor.y + monitor.height - safe - belowY) 0
    let spaceAbove := max (aboveY - safe - monitor.y) 0
    if spaceAbove ≤ spaceBelow then (candidateBelow, candidateAbove)
    else (candidateAbove, candidateBelow)

/-- The place beyond the other card, as the bar sees it. -/
def inwardPlace (card collision : Bounds) (barEdge : BarPosition) (gap : ℚ) : Bounds :=
  match barEdge with
  | .top => { card with y := collision.y + collision.height + gap }
  | .bottom => { card with y := collision.y - card.height - gap }
  | .left => { card with x := collision.x + collision.width + gap }
  | .right => { card with x := collision.x - card.width - gap }

/-- A card fits along the bar. -/
def fitsAlong (barEdge : BarPosition) (card monitor : Bounds) (safe : ℚ) : Bool :=
  match barEdge with
  | .top | .bottom => fitsHorizontally card monitor safe
  | .left | .right => fitsVertically card monitor safe

/-- A side is taken if the card fits there, and does not overlap the other. -/
def takesSide (side collision : Bounds) (input : PlacementInput) (safe : ℚ) : Bool :=
  fitsAlong input.barEdge side input.monitorBounds safe &&
    !overlaps (clampToMonitor side input.monitorBounds safe) collision

def resolveCollision (card collision : Bounds) (input : PlacementInput) (safe gap : ℚ) : Bounds :=
  if !overlaps card collision then card
  else
    let (primary, secondary) := alongSides card collision input safe gap
    if takesSide primary collision input safe then
      clampToMonitor primary input.monitorBounds safe
    else if takesSide secondary collision input safe then
      clampToMonitor secondary input.monitorBounds safe
    else clampToMonitor (inwardPlace card collision input.barEdge gap) input.monitorBounds safe

/-! ### Bands -/

/-- How far the highest card reaches inward from a horizontal bar. -/
def maxCardDepthTall : ℚ := 640 + sourceGap + safeInset

/-- How far the widest card reaches inward from a vertical bar. -/
def maxCardDepthWide : ℚ := 480 + sourceGap + safeInset

/-- The surface on which cards of a channel are drawn. -/
structure BandGeometry where
  bounds : Bounds
  barEdge : BarPosition
  barThickness : ℚ

/-- A band along the bar, as deep as a card may reach. -/
def computeBandGeometry (input : PlacementInput) : BandGeometry where
  bounds :=
    let m := input.monitorBounds
    let thickness := input.barThickness
    match input.barEdge with
    | .top => ⟨m.x, m.y + thickness, m.width, maxCardDepthTall⟩
    | .bottom => ⟨m.x, m.y + m.height - thickness - maxCardDepthTall, m.width, maxCardDepthTall⟩
    | .left => ⟨m.x + thickness, m.y, maxCardDepthWide, m.height⟩
    | .right => ⟨m.x + m.width - thickness - maxCardDepthWide, m.y, maxCardDepthWide, m.height⟩
  barEdge := input.barEdge
  barThickness := input.barThickness

/-- All of the monitor but the bar. -/
def computePersistentBandGeometry (input : PlacementInput) : BandGeometry where
  bounds :=
    let m := input.monitorBounds
    let thickness := input.barThickness
    match input.barEdge with
    | .top => ⟨m.x, m.y + thickness, m.width, m.height - thickness⟩
    | .bottom => ⟨m.x, m.y, m.width, m.height - thickness⟩
    | .left => ⟨m.x + thickness, m.y, m.width - thickness, m.height⟩
    | .right => ⟨m.x, m.y, m.width - thickness, m.height⟩
  barEdge := input.barEdge
  barThickness := input.barThickness

/-! ### The placement -/

inductive PlacementResult where
  | placed (cardBounds : Bounds) (bandGeometry : BandGeometry)
  | suppressed (reason : String)

/-- The card where it opens, moved into the safe area. -/
def openedCard (input : PlacementInput) : Bounds :=
  clampToMonitor (initialPlacement input) input.logicalMonitorBounds safeInset

/-- The card, moved away from the one that is there already. -/
def movedCard (input : PlacementInput) : Bounds :=
  match input.collisionBounds with
  | some collision =>
    resolveCollision (openedCard input) collision input safeInset sourceGap
  | none => openedCard input

def computePlacement (input : PlacementInput) : PlacementResult :=
  let card := shrinkToMonitor (movedCard input) input.logicalMonitorBounds safeInset
  if card.width < minUsableWidth ∨ card.height < minUsableHeight then
    .suppressed "card shrunk below minimum usable size"
  else .placed card (computeBandGeometry input)

/-! ### One axis -/

section

variable {start length safe side pos : ℚ}

theorem le_clampAxis : start + safe ≤ clampAxis start length safe side pos :=
  le_min (le_max_right _ _) (le_max_right _ _)

theorem clampAxis_le : clampAxis start length safe side pos ≤
    max (start + length - safe - side) (start + safe) :=
  min_le_right _ _

/-- What is in the safe area stays. -/
theorem clampAxis_eq (hlow : start + safe ≤ pos) (hhigh : pos + side ≤ start + length - safe) :
    clampAxis start length safe side pos = pos := by
  rw [clampAxis, max_eq_left hlow, min_eq_left]
  exact le_max_of_le_left (by linarith)

/-- Shrunk, what has been moved into the safe area ends in it. -/
theorem add_min_le (h : pos ≤ max (start + length - safe - side) (start + safe)) :
    pos + min side (length - safe * 2) ≤ start + length - safe := by
  rcases le_max_iff.mp h with h | h
  · have hside := min_le_left side (length - safe * 2)
    linarith
  · have hside := min_le_right side (length - safe * 2)
    linarith

/-- And it is not moved again. -/
theorem reclampAxis_eq (hlow : start + safe ≤ pos)
    (hhigh : pos ≤ max (start + length - safe - side) (start + safe)) :
    reclampAxis start length safe (min side (length - safe * 2)) pos = pos := by
  have hend := add_min_le hhigh
  rw [reclampAxis, max_eq_left hlow, min_eq_left (by linarith), max_eq_left hlow]

end

/-! ### The safe area -/

/-- The card is in the monitor without its edges. -/
structure InSafeArea (monitor card : Bounds) : Prop where
  left : monitor.x + safeInset ≤ card.x
  right : card.x + card.width ≤ monitor.x + monitor.width - safeInset
  top : monitor.y + safeInset ≤ card.y
  bottom : card.y + card.height ≤ monitor.y + monitor.height - safeInset

/-- The card begins in the safe area, and ends there if it fits. -/
structure Clamped (monitor card : Bounds) : Prop where
  left : monitor.x + safeInset ≤ card.x
  right : card.x ≤ max (monitor.x + monitor.width - safeInset - card.width) (monitor.x + safeInset)
  top : monitor.y + safeInset ≤ card.y
  bottom : card.y ≤
    max (monitor.y + monitor.height - safeInset - card.height) (monitor.y + safeInset)

theorem clamped_clampToMonitor (card monitor : Bounds) :
    Clamped monitor (clampToMonitor card monitor safeInset) :=
  ⟨le_clampAxis, clampAxis_le, le_clampAxis, clampAxis_le⟩

variable {monitor card : Bounds}

theorem InSafeArea.clampToMonitor_eq (h : InSafeArea monitor card) :
    clampToMonitor card monitor safeInset = card := by
  rw [clampToMonitor, clampAxis_eq h.left h.right, clampAxis_eq h.top h.bottom]

/-- A card that has been moved into the safe area is shrunk where it is. -/
theorem Clamped.shrinkToMonitor_eq (h : Clamped monitor card) :
    shrinkToMonitor card monitor safeInset =
      ⟨card.x, card.y, min card.width (monitor.width - safeInset * 2),
        min card.height (monitor.height - safeInset * 2)⟩ := by
  rw [shrinkToMonitor, reclampAxis_eq h.left h.right, reclampAxis_eq h.top h.bottom]

theorem Clamped.inSafeArea (h : Clamped monitor card) :
    InSafeArea monitor (shrinkToMonitor card monitor safeInset) := by
  rw [h.shrinkToMonitor_eq]
  exact ⟨h.left, add_min_le h.right, h.top, add_min_le h.bottom⟩

/-- A card that is smaller overlaps no more. -/
theorem overlaps_of_shrunk {card collision : Bounds} {w h : ℚ} (hw : w ≤ card.width)
    (hh : h ≤ card.height) (hoverlaps : overlaps ⟨card.x, card.y, w, h⟩ collision = true) :
    overlaps card collision = true := by
  simp only [overlaps, Bool.and_eq_true, decide_eq_true_eq] at hoverlaps ⊢
  obtain ⟨⟨⟨hleft, hright⟩, htop⟩, hbottom⟩ := hoverlaps
  exact ⟨⟨⟨hleft, by linarith⟩, htop⟩, by linarith⟩

/-! ### Another card -/

/-- Where a card is tried if it overlaps another: on either side of it along the bar, or beyond
it. -/
def candidatePlaces (input : PlacementInput) (collision : Bounds) : List Bounds :=
  let card := openedCard input
  let sides := alongSides card collision input safeInset sourceGap
  [sides.1, sides.2, inwardPlace card collision input.barEdge sourceGap]

variable (input : PlacementInput)

theorem logicalMonitorBounds_eq :
    input.logicalMonitorBounds = input.monitorBounds := by
  rw [PlacementInput.logicalMonitorBounds]
  split_ifs <;> rfl

theorem clamped_movedCard :
    Clamped input.monitorBounds (movedCard input) := by
  have hopened : Clamped input.monitorBounds (openedCard input) := by
    rw [openedCard, logicalMonitorBounds_eq]
    exact clamped_clampToMonitor _ _
  rw [movedCard]
  cases input.collisionBounds with
  | none => exact hopened
  | some collision =>
    simp only [resolveCollision]
    split_ifs
    · exact hopened
    all_goals exact clamped_clampToMonitor _ _

theorem takesSide_of_inSafeArea {input : PlacementInput} {side collision : Bounds}
    (h : InSafeArea input.monitorBounds side) (hfree : overlaps side collision = false) :
    takesSide side collision input safeInset = true := by
  rw [takesSide, h.clampToMonitor_eq, hfree, Bool.not_false, Bool.and_true]
  cases input.barEdge
  all_goals simp [fitsAlong, fitsHorizontally, fitsVertically, h.left, h.right, h.top, h.bottom]

/-- The cards are of one size. -/
def SameSize (a b : Bounds) : Prop := a.width = b.width ∧ a.height = b.height

theorem sameSize_alongSides (card collision : Bounds) (input : PlacementInput) :
    SameSize (alongSides card collision input safeInset sourceGap).1 card ∧
      SameSize (alongSides card collision input safeInset sourceGap).2 card := by
  rw [alongSides]
  cases input.barEdge
  all_goals
    simp only
    split_ifs <;> exact ⟨⟨rfl, rfl⟩, rfl, rfl⟩

theorem sameSize_inwardPlace (card collision : Bounds) (barEdge : BarPosition) :
    SameSize (inwardPlace card collision barEdge sourceGap) card := by
  cases barEdge <;> exact ⟨rfl, rfl⟩

theorem sameSize_openedCard :
    SameSize (openedCard input)
      ⟨0, 0, input.requestedSize.width, input.requestedSize.height⟩ := by
  rw [openedCard, initialPlacement]
  cases input.barEdge <;> exact ⟨rfl, rfl⟩

/-- Until it is shrunk the card is as large as it was requested. -/
theorem size_movedCard :
    (movedCard input).width = input.requestedSize.width ∧
      (movedCard input).height = input.requestedSize.height := by
  have hopened := sameSize_openedCard input
  rw [movedCard]
  cases input.collisionBounds with
  | none => exact hopened
  | some collision =>
    obtain ⟨hprimary, hsecondary⟩ := sameSize_alongSides (openedCard input) collision input
    have hinward := sameSize_inwardPlace (openedCard input) collision input.barEdge
    simp only [resolveCollision]
    split_ifs
    · exact hopened
    · exact ⟨hprimary.1.trans hopened.1, hprimary.2.trans hopened.2⟩
    · exact ⟨hsecondary.1.trans hopened.1, hsecondary.2.trans hopened.2⟩
    · exact ⟨hinward.1.trans hopened.1, hinward.2.trans hopened.2⟩

/-- The card does not overlap the other if it has somewhere to go. -/
theorem movedCard_free {input : PlacementInput} {collision place : Bounds}
    (hcollision : input.collisionBounds = some collision)
    (hplace : place ∈ candidatePlaces input collision)
    (hsafe : InSafeArea input.monitorBounds place) (hfree : overlaps place collision = false) :
    overlaps (movedCard input) collision = false := by
  have htakes := takesSide_of_inSafeArea hsafe hfree
  simp only [movedCard, hcollision, resolveCollision]
  split_ifs with hopened hprimary hsecondary
  · simpa using hopened
  · rw [takesSide, Bool.and_eq_true, Bool.not_eq_true'] at hprimary
    exact hprimary.2
  · rw [takesSide, Bool.and_eq_true, Bool.not_eq_true'] at hsecondary
    exact hsecondary.2
  · simp only [candidatePlaces, List.mem_cons, List.not_mem_nil, or_false] at hplace
    obtain rfl | rfl | rfl := hplace
    · exact absurd htakes hprimary
    · exact absurd htakes hsecondary
    · rwa [hsafe.clampToMonitor_eq]

/-! ### Main result -/

/-- What a placement promises. -/
def PlacementResult.Sound (input : PlacementInput) : PlacementResult → Prop
  | .placed card _ =>
    InSafeArea input.monitorBounds card ∧
    (card.width ≤ input.requestedSize.width ∧ card.height ≤ input.requestedSize.height) ∧
    (minUsableWidth ≤ card.width ∧ minUsableHeight ≤ card.height) ∧
    ∀ collision, input.collisionBounds = some collision →
      (∃ place ∈ candidatePlaces input collision, InSafeArea input.monitorBounds place ∧
        overlaps place collision = false) →
      overlaps card collision = false
  | .suppressed _ =>
    input.requestedSize.width < minUsableWidth ∨ input.requestedSize.height < minUsableHeight ∨
    input.monitorBounds.width - safeInset * 2 < minUsableWidth ∨
    input.monitorBounds.height - safeInset * 2 < minUsableHeight

end Shilpo.Cards

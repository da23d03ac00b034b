/-
Module: Terragraph.Algorithms.LinkAngles
Purpose: `InterferenceHelper::createGraphWithLinkAngles`: the angles between links that share a site.
Trusted boundary: human-reviewed embedding of `InterferenceHelper.cpp`, with real numbers for doubles
Main exports: createGraphWithLinkAngles, linkAngles_symmetric_iff
-/
import Terragraph.Algorithms.LinkGroups

namespace Terragraph

open List Option KeyIndex

/-! ### The graph -/

section Graph

variable {α : Type} [Field α] [LinearOrder α]

/-- `InterferenceHelper::computeUndirectedLinkAngleDiff`. -/
def computeUndirectedLinkAngleDiff (angle angleBase : α) (flip : Bool) : α :=
  -- the flipped difference does not depend on `angle`
  let angleDiff := |if flip then 180 - angleBase else angle - angleBase|
  let angleDiff := if angleDiff > 180 then 360 - angleDiff else angleDiff
  if angleDiff > 90 then 180 - angleDiff else angleDiff

/-- The names of the sites of the two ends of a link, and its angle. -/
structure Line (α : Type) where
  aSite : String
  zSite : String
  angle : α

def Line.SharesSite (a b : Line α) : Prop :=
  a.aSite = b.aSite ∨ a.aSite = b.zSite ∨ a.zSite = b.aSite ∨ a.zSite = b.zSite

def Line.flip (a b : Line α) : Bool :=
  decide (¬ (a.aSite = b.aSite ∨ a.zSite = b.zSite))

/-- What the graph says about two links that share a site. -/
def Line.angleDiff (a b : Line α) : α :=
  computeUndirectedLinkAngleDiff a.angle b.angle (a.flip b)

instance (a b : Line α) : Decidable (a.SharesSite b) :=
  inferInstanceAs (Decidable (_ ∨ _))

variable (angle : Location → Location → α) (w : TopologyWrapper)

/-- The line of a link; `none` stands for the dereference of an empty optional. -/
def linkLine (link : Link) : Option (Line α) := do
  let aNode ← w.getNode link.aNodeName
  let zNode ← w.getNode link.zNodeName
  let aSite ← w.getSite aNode.siteName
  let zSite ← w.getSite zNode.siteName
  return ⟨aNode.siteName, zNode.siteName, angle aSite.location zSite.location⟩

/-- `InterferenceHelper::createGraphWithLinkAngles`: the entries, each with the name of the link to
whose neighbors it is added.  Both loops look at all wireless links. -/
def createGraphWithLinkAngles : Option (List (String × String × α)) := do
  let lines ← (w.topology.links.filter (·.linkType = .WIRELESS)).mapM fun link =>
    return (link.name, ← linkLine angle w link)
  return lines.flatMap fun (aName, a) => lines.filterMap fun (bName, b) =>
    if aName ≠ bName ∧ a.SharesSite b then some (aName, bName, a.angleDiff b) else none

end Graph

/-- The locals `x` and `y` of `computeAngle`. -/
noncomputable def displacement (l1 l2 : Location) : ℂ where
  re := 6371000 * (l1.longitude - l2.longitude : ℝ) * (Real.pi / 180) *
    Real.cos ((l1.latitude + l2.latitude : ℝ) * (Real.pi / 180) / 2)
  im := 6371000 * ((l1.latitude - l2.latitude : ℝ) * (Real.pi / 180))

/-- `computeAngle`: the `atan2` of `y` and `x`, in degrees. -/
noncomputable def computeAngle (l1 l2 : Location) : ℝ :=
  (displacement l1 l2).arg / Real.pi * 180

/-! ### Angles between lines -/

/-- Angles of lines that are not directed, of which those that differ by 180 degrees are the same. -/
abbrev LineAngle := AddCircle (180 : ℝ)

/-- The angle between two lines, at most 90 degrees. -/
noncomputable def undirectedAngle (angle angleBase : ℝ) : ℝ := ‖(angle - angleBase : LineAngle)‖

theorem undirectedAngle_comm (angle angleBase : ℝ) :
    undirectedAngle angle angleBase = undirectedAngle angleBase angle :=
  norm_sub_rev _ _

theorem norm_lineAngle_of_mem {x : ℝ} (nonneg : 0 ≤ x) (small : x ≤ 90) : ‖(x : LineAngle)‖ = x := by
  have kept := (AddCircle.norm_coe_eq_abs_iff (180 : ℝ) (x := x) (by norm_num)).mpr
    (by rw [abs_of_nonneg] <;> linarith)
  rw [kept, abs_of_nonneg nonneg]

theorem coe_straight_sub (x : ℝ) : ((180 - x : ℝ) : LineAngle) = -x := by
  rw [AddCircle.coe_sub, AddCircle.coe_period, zero_sub]

theorem norm_abs (x : ℝ) : ‖((|x| : ℝ) : LineAngle)‖ = ‖(x : LineAngle)‖ := by
  rcases abs_choice x with same | negated
  · rw [same]
  · rw [negated, AddCircle.coe_neg, norm_neg]

/-- Folding a difference gives the angle of the line. -/
theorem norm_eq_fold {x : ℝ} (bounded : |x| ≤ 360) :
    (let angleDiff := if |x| > 180 then 360 - |x| else |x|
      if angleDiff > 90 then 180 - angleDiff else angleDiff) = ‖(x : LineAngle)‖ := by
  have nonneg := abs_nonneg x
  have turn : ‖((360 - |x| : ℝ) : LineAngle)‖ = ‖(x : LineAngle)‖ := by
    rw [show (360 - |x| : ℝ) = 180 - (|x| - 180) by ring, coe_straight_sub, norm_neg,
      AddCircle.coe_sub, AddCircle.coe_period, sub_zero, norm_abs]
  have half : ∀ {y : ℝ}, 0 ≤ y → y ≤ 180 → ‖(y : LineAngle)‖ = ‖(x : LineAngle)‖ →
      (if y > 90 then 180 - y else y) = ‖(x : LineAngle)‖ := by
    intro y nonneg _ same
    split
    · rw [← same, ← norm_neg, ← coe_straight_sub, norm_lineAngle_of_mem] <;> linarith
    · next narrow => rw [← same, norm_lineAngle_of_mem nonneg (not_lt.mp narrow)]
  split
  · exact half (by linarith) (by linarith) turn
  · next narrow => exact half nonneg (not_lt.mp narrow) (norm_abs x)

theorem computeUndirectedLinkAngleDiff_eq {angle angleBase : ℝ} (bounded : |angle| ≤ 180)
    (boundedBase : |angleBase| ≤ 180) (flip : Bool) :
    computeUndirectedLinkAngleDiff angle angleBase flip =
      if flip then ‖(angleBase : LineAngle)‖ else undirectedAngle angle angleBase := by
  obtain ⟨low, high⟩ := abs_le.mp bounded
  obtain ⟨lowBase, highBase⟩ := abs_le.mp boundedBase
  cases flip with
  | true =>
    rw [← norm_neg, ← coe_straight_sub]
    exact norm_eq_fold (x := 180 - angleBase) (abs_le.mpr ⟨by linarith, by linarith⟩)
  | false => exact norm_eq_fold (x := angle - angleBase) (abs_le.mpr ⟨by linarith, by linarith⟩)

theorem lineAngle_eq_or_neg {a b : LineAngle} (same : ‖a‖ = ‖b‖) : a = b ∨ a = -b := by
  obtain ⟨x, rfl⟩ := QuotientAddGroup.mk_surjective a
  obtain ⟨y, rfl⟩ := QuotientAddGroup.mk_surjective b
  have near : ∀ z : ℝ, ∃ r : ℝ, (r : LineAngle) = z ∧ ‖(z : LineAngle)‖ = |r| := fun z =>
    ⟨_, by simp [AddCircle.coe_period], AddCircle.norm_eq (180 : ℝ)⟩
  obtain ⟨r, isX, normX⟩ := near x
  obtain ⟨s, isY, normY⟩ := near y
  rw [normX, normY, abs_eq_abs] at same
  rw [← isX, ← isY]
  rcases same with rfl | rfl
  · exact .inl rfl
  · exact .inr (AddCircle.coe_neg _)

variable (l1 l2 : Location)

theorem abs_computeAngle_le : |computeAngle l1 l2| ≤ 180 := by
  have small := div_le_one_of_le₀ (Complex.abs_arg_le_pi (displacement l1 l2)) Real.pi_pos.le
  rw [computeAngle, abs_mul, abs_div, abs_of_pos Real.pi_pos]
  linarith

theorem displacement_swap : displacement l2 l1 = -displacement l1 l2 := by
  apply Complex.ext
  · simp only [displacement, Complex.neg_re]
    ring_nf
  · simp only [displacement, Complex.neg_im]
    ring

/-- The line of a link has one angle, from whichever end it is seen. -/
theorem computeAngle_swap :
    (computeAngle l2 l1 : LineAngle) = computeAngle l1 l2 := by
  unfold computeAngle
  rw [displacement_swap]
  by_cases here : displacement l1 l2 = 0
  · rw [here, neg_zero]
  · obtain ⟨k, turned⟩ :=
      Real.Angle.angle_eq_iff_two_pi_dvd_sub.mp (Complex.arg_neg_coe_angle here)
    have degrees : (-displacement l1 l2).arg / Real.pi * 180 =
        (displacement l1 l2).arg / Real.pi * 180 + (2 * k + 1 : ℤ) • (180 : ℝ) := by
      rw [sub_eq_iff_eq_add.mp turned]
      field_simp
      ring
    rw [degrees, AddCircle.coe_add, AddCircle.coe_zsmul, AddCircle.coe_period, smul_zero, add_zero]

/-! ### The entries of the graph -/

/-- The same link from `z` to `a`. -/
def Link.swapEnds (link : Link) : Link :=
  { link with
    aNodeName := link.zNodeName
    zNodeName := link.aNodeName
    aNodeMac := link.zNodeMac
    zNodeMac := link.aNodeMac }

theorem mem_of_mapM {β γ : Type} {f : β → Option γ} {items : List β} {values : List γ}
    (ran : items.mapM f = some values) {value : γ} :
    value ∈ values ↔ ∃ item ∈ items, f item = some value := by
  induction items generalizing values with
  | nil => simp_all
  | cons _ _ ih =>
    simp only [mapM_cons, bind_eq_bind, bind_eq_some_iff] at ran
    obtain ⟨_, isFirst, _, ranRest, built⟩ := ran
    cases built
    simp [ih ranRest, isFirst, eq_comm]

section Entries

variable {w : TopologyWrapper} {link a b : Link} {line aLine bLine : Line ℝ}

theorem abs_angle_le (known : linkLine computeAngle w link = some line) : |line.angle| ≤ 180 := by
  simp only [linkLine, bind_eq_bind, bind_eq_some_iff] at known
  obtain ⟨_, _, _, _, _, _, _, _, built⟩ := known
  cases built
  exact abs_computeAngle_le _ _

theorem linkLine_swapEnds (known : linkLine computeAngle w link = some line) :
    ∃ swapped, linkLine computeAngle w link.swapEnds = some swapped ∧
      swapped.aSite = line.zSite ∧ swapped.zSite = line.aSite ∧
      (swapped.angle : LineAngle) = line.angle := by
  simp only [linkLine, bind_eq_bind, bind_eq_some_iff] at known
  obtain ⟨_, aFound, _, zFound, _, aLocated, _, zLocated, built⟩ := known
  cases built
  exact ⟨_, by simp [linkLine, Link.swapEnds, aFound, zFound, aLocated, zLocated]; rfl, rfl, rfl,
    computeAngle_swap _ _⟩

theorem angleDiff_eq (aKnown : linkLine computeAngle w a = some aLine)
    (bKnown : linkLine computeAngle w b = some bLine) :
    aLine.angleDiff bLine = if aLine.flip bLine then ‖(bLine.angle : LineAngle)‖
      else undirectedAngle aLine.angle bLine.angle :=
  computeUndirectedLinkAngleDiff_eq (abs_angle_le aKnown) (abs_angle_le bKnown) _

end Entries

/-! ### Symmetry -/

section Symmetry

variable (w : TopologyWrapper)

/-- Two wireless links with different names that share a site, and their lines. -/
structure SiteNeighbors (a b : Link) (aLine bLine : Line ℝ) : Prop where
  isA : a ∈ w.topology.links ∧ a.linkType = .WIRELESS
  isB : b ∈ w.topology.links ∧ b.linkType = .WIRELESS
  differ : a.name ≠ b.name
  aKnown : linkLine computeAngle w a = some aLine
  bKnown : linkLine computeAngle w b = some bLine
  shared : aLine.SharesSite bLine

/-- However the ends of two links are swapped, this is the angle between them. -/
def TurnedAngle (a b : Link) (angle : ℝ) : Prop :=
  ∀ a' ∈ [a, a.swapEnds], ∀ b' ∈ [b, b.swapEnds], ∀ aLine bLine,
    linkLine computeAngle w a' = some aLine → linkLine computeAngle w b' = some bLine →
      aLine.angleDiff bLine = angle

/-- Of two links that share a site, each is a neighbor of the other with the angle between their
lines, which does not depend on the order of their ends. -/
def AnglesSymmetric (graph : List (String × String × ℝ)) : Prop :=
  ∀ a b aLine bLine, SiteNeighbors w a b aLine bLine →
    (∀ angle, (a.name, b.name, angle) ∈ graph ↔ angle = undirectedAngle aLine.angle bLine.angle) ∧
    (∀ angle, (b.name, a.name, angle) ∈ graph ↔ angle = undirectedAngle aLine.angle bLine.angle) ∧
    TurnedAngle w a b (undirectedAngle aLine.angle bLine.angle)

/-- The angles are both multiples of 180 degrees, or 60 and 120 degrees up to such multiples. -/
def Aligned (angle angleBase : ℝ) : Prop :=
  (angle : LineAngle) = 2 • (angleBase : LineAngle) ∧
    (angleBase : LineAngle) = 2 • (angle : LineAngle)

variable {w} {a b : Link} {aLine bLine : Line ℝ}

theorem SiteNeighbors.symm (near : SiteNeighbors w a b aLine bLine) :
    SiteNeighbors w b a bLine aLine where
  isA := near.isB
  isB := near.isA
  differ := near.differ.symm
  aKnown := near.bKnown
  bKnown := near.aKnown
  shared := by
    have := near.shared
    unfold Line.SharesSite at *
    grind

/-- A link as it is or with its ends swapped has the same line. -/
theorem line_of_orientation {a' : Link} {aLine' : Line ℝ} (turned : a' ∈ [a, a.swapEnds])
    (known : linkLine computeAngle w a = some aLine)
    (known' : linkLine computeAngle w a' = some aLine') :
    (aLine'.angle : LineAngle) = aLine.angle ∧
      ((aLine'.aSite = aLine.aSite ∧ aLine'.zSite = aLine.zSite) ∨
        (aLine'.aSite = aLine.zSite ∧ aLine'.zSite = aLine.aSite)) := by
  rcases mem_pair.mp turned with rfl | rfl
  · cases known.symm.trans known'
    exact ⟨rfl, .inl ⟨rfl, rfl⟩⟩
  · obtain ⟨_, knownSwapped, aSite, zSite, angle⟩ := linkLine_swapEnds known
    cases knownSwapped.symm.trans known'
    exact ⟨angle, .inr ⟨aSite, zSite⟩⟩

/-- In every orientation the angle is right, unless some orientation is flipped, and then the angle
of the second line alone has to be right. -/
theorem angleDiff_turned_iff (near : SiteNeighbors w a b aLine bLine) :
    TurnedAngle w a b (undirectedAngle aLine.angle bLine.angle) ↔
      aLine.aSite = aLine.zSite ∨ bLine.aSite = bLine.zSite ∨
        ‖(bLine.angle : LineAngle)‖ = undirectedAngle aLine.angle bLine.angle := by
  have shared := near.shared
  constructor
  · intro agree
    by_contra! apart
    obtain ⟨_, _, wrong⟩ := apart
    have unflipped : aLine.flip bLine = false := by
      by_contra flipped
      have right := agree a (by simp) b (by simp) _ _ near.aKnown near.bKnown
      rw [angleDiff_eq near.aKnown near.bKnown, if_pos (by simpa using flipped)] at right
      exact wrong right
    obtain ⟨swapped, known, _, _, _⟩ := linkLine_swapEnds near.aKnown
    have flipped : swapped.flip bLine = true := by
      unfold Line.flip Line.SharesSite at *
      grind
    have right := agree a.swapEnds (by simp) b (by simp) _ _ known near.bKnown
    rw [angleDiff_eq known near.bKnown, if_pos flipped] at right
    exact wrong right
  · intro _ _ turnedA _ turnedB _ _ knownA knownB
    obtain ⟨aAngle, _⟩ := line_of_orientation turnedA near.aKnown knownA
    obtain ⟨bAngle, _⟩ := line_of_orientation turnedB near.bKnown knownB
    rw [angleDiff_eq knownA knownB, undirectedAngle, aAngle, bAngle]
    split
    · unfold Line.flip Line.SharesSite at *
      grind [undirectedAngle]
    · rfl

theorem aligned_iff {x y : ℝ} : Aligned x y ↔ ‖(y : LineAngle)‖ = undirectedAngle x y ∧
      ‖(x : LineAngle)‖ = undirectedAngle x y := by
  unfold Aligned undirectedAngle
  generalize (x : LineAngle) = a
  generalize (y : LineAngle) = b
  constructor
  · rintro ⟨double, double'⟩
    constructor
    · rw [double, two_nsmul, add_sub_cancel_right]
    · rw [double', two_nsmul, sub_add_cancel_left, norm_neg]
  · rintro ⟨right, right'⟩
    have double : a = 0 ∨ a = 2 • b := by
      rcases lineAngle_eq_or_neg right with same | same
      · exact .inr ((two_nsmul b).symm ▸ (eq_sub_iff_add_eq.mp same).symm)
      · exact .inl (sub_eq_self.mp ((neg_sub a b).symm.trans same.symm))
    have double' : b = 0 ∨ b = 2 • a := by
      rcases lineAngle_eq_or_neg right' with same | same
      · exact .inl (sub_eq_self.mp same.symm)
      · rw [neg_sub, eq_sub_iff_add_eq] at same
        exact .inr ((two_nsmul a).symm ▸ same.symm)
    rcases double with rfl | double
    · rcases double' with rfl | rfl <;> simp
    · rcases double' with rfl | double'
      · simp [double]
      · exact ⟨double, double'⟩

variable {graph : List (String × String × ℝ)} (unique : (w.topology.links.map Link.name).Nodup)
  (created : createGraphWithLinkAngles computeAngle w = some graph)
include unique created

theorem mem_graph (near : SiteNeighbors w a b aLine bLine) (angle : ℝ) :
    (a.name, b.name, angle) ∈ graph ↔ angle = aLine.angleDiff bLine := by
  obtain ⟨lines, ran, rfl⟩ : ∃ lines, _ ∧ _ = graph := by
    simpa [createGraphWithLinkAngles, bind_eq_some_iff] using created
  have mem_lines : ∀ {a aLine}, a ∈ w.topology.links ∧ a.linkType = .WIRELESS →
      linkLine computeAngle w a = some aLine → ∀ line, (a.name, line) ∈ lines ↔ line = aLine := by
    intro a _ isA known _
    rw [mem_of_mapM ran]
    constructor
    · rintro ⟨_, isLink, named⟩
      obtain ⟨_, known', same⟩ := bind_eq_some_iff.mp named
      obtain ⟨sameName, rfl⟩ := Prod.mk.inj (some.inj same)
      cases inj_on_of_nodup_map unique (mem_of_mem_filter isLink) isA.1 sameName
      exact some.inj (known'.symm.trans known)
    · rintro rfl
      exact ⟨a, by simp [isA], by simp [known]⟩
  have aLines := mem_lines near.isA near.aKnown
  have bLines := mem_lines near.isB near.bKnown
  simp only [mem_flatMap, mem_filterMap, Prod.exists]
  constructor
  · rintro ⟨_, line, isLine, _, line', isLine', pushed⟩
    split at pushed
    · cases pushed
      rw [(aLines line).mp isLine, (bLines line').mp isLine']
    · cases pushed
  · rintro rfl
    exact ⟨a.name, aLine, (aLines _).mpr rfl, b.name, bLine, (bLines _).mpr rfl,
      if_pos ⟨near.differ, near.shared⟩⟩

/-- The graph has the undirected angle at both links exactly if the links are aligned, or one of
them stays within a site. -/
theorem linkAngles_symmetric_iff :
    AnglesSymmetric w graph ↔ ∀ a b aLine bLine, SiteNeighbors w a b aLine bLine →
      aLine.aSite = aLine.zSite ∨ bLine.aSite = bLine.zSite ∨ Aligned aLine.angle bLine.angle := by
  constructor
  · intro symmetric a b aLine bLine near
    have right := (angleDiff_turned_iff near).mp (symmetric a b aLine bLine near).2.2
    have right' := (angleDiff_turned_iff near.symm).mp (symmetric b a bLine aLine near.symm).2.2
    rw [undirectedAngle_comm] at right'
    rw [aligned_iff]
    tauto
  · intro condition
    have turned : ∀ a b aLine bLine, SiteNeighbors w a b aLine bLine →
        TurnedAngle w a b (undirectedAngle aLine.angle bLine.angle) :=
      fun a b aLine bLine near => (angleDiff_turned_iff near).mpr
        ((condition a b aLine bLine near).imp_right (.imp_right fun both => (aligned_iff.mp both).1))
    intro a b aLine bLine near
    refine ⟨fun angle => ?_, fun _ => ?_, turned a b aLine bLine near⟩
    · rw [mem_graph unique created near,
        turned a b aLine bLine near a (by simp) b (by simp) _ _ near.aKnown near.bKnown]
    · rw [mem_graph unique created near.symm, undirectedAngle_comm, turned b a bLine aLine
        near.symm b (by simp) a (by simp) _ _ near.bKnown near.aKnown]

end Symmetry

/-! ### Three sites -/

/-- The link of `a` and `b` and that of `b` and `c`. -/
def threeSites (first second third : Location) : TopologyWrapper :=
  let topology : Topology :=
    { sites := [⟨"A", first⟩, ⟨"B", second⟩, ⟨"C", third⟩]
      nodes := [{ name := "a", siteName := "A" }, { name := "b", siteName := "B" },
        { name := "c", siteName := "C" }]
      links := [radioLink "a" "" "b" "", radioLink "b" "" "c" ""] }
  { TopologyWrapper.ofTopology topology false with
    name2Node := refresh Node.name topology.nodes fun _ => none
    name2Site := refresh Site.name topology.sites fun _ => none }

theorem computeAngle_east {east west : Rat} (apart : west ≤ east) :
    computeAngle { longitude := east } { longitude := west } = 0 := by
  have level : (displacement { longitude := east } { longitude := west }).arg = 0 := by
    refine Complex.arg_eq_zero_iff.mpr ⟨?_, by simp [displacement]⟩
    have forward : (0 : ℝ) ≤ east - west := sub_nonneg.mpr (Rat.cast_le.mpr apart)
    simp only [displacement, Rat.cast_zero, add_zero, zero_mul, zero_div, Real.cos_zero]
    positivity
  rw [computeAngle, level, zero_div, zero_mul]

/-- The three sites lie in line from east to west. -/
theorem linkAngles_symmetric_in_line :
    let w := threeSites { longitude := 2 } { longitude := 1 } { longitude := 0 }
    ∃ graph, createGraphWithLinkAngles computeAngle w = some graph ∧ AnglesSymmetric w graph := by
  refine ⟨_, rfl, (linkAngles_symmetric_iff (by decide) rfl).mpr ?_⟩
  intro a b _ _ near
  have level : ∀ {link line}, link ∈ [radioLink "a" "" "b" "", radioLink "b" "" "c" ""] →
      linkLine computeAngle (threeSites { longitude := 2 } { longitude := 1 } { longitude := 0 })
        link = some line → line.angle = 0 := by
    intro _ _ isLink known
    rcases mem_pair.mp isLink with rfl | rfl
    · cases known
      exact computeAngle_east (by norm_num)
    · cases known
      exact computeAngle_east (by norm_num)
  right
  right
  rw [level near.isA.1 near.aKnown, level near.isB.1 near.bKnown]
  simp [Aligned]

/-- The second link leads south from the end of the first, which leads west: seen from the second
link the angle is 0 degrees. -/
theorem linkAngles_symmetric_fails :
    let w := threeSites { longitude := 1 } { longitude := 0 } { latitude := -1 }
    (w.topology.links.map Link.name).Nodup ∧
      ∃ graph, createGraphWithLinkAngles computeAngle w = some graph ∧
        ¬ AnglesSymmetric w graph := by
  refine ⟨by decide, _, rfl, ?_⟩
  intro symmetric
  have near : SiteNeighbors (threeSites { longitude := 1 } { longitude := 0 } { latitude := -1 })
      (radioLink "b" "" "c" "") (radioLink "a" "" "b" "") ⟨"B", "C", computeAngle {} { latitude := -1 }⟩
      ⟨"A", "B", computeAngle { longitude := 1 } { longitude := 0 }⟩ :=
    ⟨⟨.tail _ (.head _), rfl⟩, ⟨.head _, rfl⟩, by decide, rfl, rfl, .inr (.inl rfl)⟩
  have south : computeAngle {} { latitude := -1 } = 90 := by
    have upright : (displacement {} { latitude := -1 }).arg = Real.pi / 2 :=
      Complex.arg_eq_pi_div_two_iff.mpr ⟨by simp [displacement], by
        simp only [displacement, Rat.cast_zero, Rat.cast_neg, Rat.cast_one]
        positivity⟩
    rw [computeAngle, upright]
    field_simp
    norm_num
  rcases (angleDiff_turned_iff near).mp (symmetric _ _ _ _ near).2.2 with same | same | wrong
  · exact absurd same (by decide)
  · exact absurd same (by decide)
  · have right : undirectedAngle 90 0 = 90 := by
      rw [undirectedAngle, AddCircle.coe_zero, sub_zero, norm_lineAngle_of_mem] <;> norm_num
    rw [computeAngle_east (by norm_num), south, right, AddCircle.coe_zero, norm_zero] at wrong
    norm_num at wrong

end Terragraph

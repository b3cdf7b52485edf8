import Shilpo.Compositor.Fate

/-!
# Owner generations and the compositor's snapshots

Calls of `set_installed_generation` and `observe_snapshot` that do not overlap, on a
broker in any state. Snapshots are accepted in the order of their versions, and one
that is refused changes nothing. But a snapshot is refused for its generation only if
that is above the installed one: one of an owner that has been replaced is compared
with the stored snapshot like any other, and accepted if it is newer
(`late_snapshot_accepted`). `generation_fence` says what holds, and exactly when the
fence does.
-/

namespace Shilpo.Compositor

open Domain Theory

/-- A call. -/
inductive GenerationOp where
  | setInstalledGeneration (generation : ℕ)
  | observeSnapshot (snapshot : CompositorSnapshot)

namespace Broker

/-- A whole call of `set_installed_generation`. -/
def setInstalledGeneration (s : Broker) (generation : ℕ) : Broker :=
  ((s.storeGeneration generation).bumpEpoch).drainReplaced

/-- A whole call of `observe_snapshot`: the snapshot, if stored, is shown to the active command. -/
def observeNow (s : Broker) (snapshot : CompositorSnapshot) : Broker :=
  (s.observeSnapshot s.installedGeneration snapshot).1.deliver s.deliveries.length

/-- The call returns `Ok`. -/
def Accepts (s : Broker) (snapshot : CompositorSnapshot) : Prop :=
  (s.observeSnapshot s.installedGeneration snapshot).2 = .ok ()

/-- One call. -/
def call (s : Broker) : GenerationOp → Broker
  | .setInstalledGeneration generation => s.setInstalledGeneration generation
  | .observeSnapshot snapshot => s.observeNow snapshot

/-! ### What a snapshot does -/

/-- The stored snapshot is one that the new one does not replace: not the initial one, and newer
than it, or as new and different. -/
def Outdates (s : Broker) (snapshot : CompositorSnapshot) : Prop :=
  s.isInitial = false ∧
    (snapshot.version < s.snapshot.version ∨
      snapshot.version = s.snapshot.version ∧ (s.snapshot == snapshot) = false)

/-- A snapshot is stored, or it is the stored one again, or it is refused; and it is refused for
its generation if that is not installed yet, and else for what is stored. -/
theorem observeSnapshot_cases (s : Broker) (installed : ℕ) (snapshot : CompositorSnapshot) :
    (∃ e, s.observeSnapshot installed snapshot = (s, .error e)) ∧
        (installed < snapshot.version.ownerGeneration ∨ s.Outdates snapshot) ∨
      snapshot.version.ownerGeneration ≤ installed ∧ ¬ s.Outdates snapshot ∧
        (s.observeSnapshot installed snapshot =
            ((s.store snapshot).toDeliver snapshot, .ok ()) ∧
            (s.isInitial = true ∨ s.snapshot.version < snapshot.version) ∨
          s.observeSnapshot installed snapshot = (s, .ok ()) ∧ s.isInitial = false ∧
            snapshot.version = s.snapshot.version ∧ (s.snapshot == snapshot) = true) := by
  unfold observeSnapshot Outdates
  split_ifs with hgen hinit hlt heq hsame
  · exact .inl ⟨⟨_, rfl⟩, .inl hgen⟩
  · exact .inr ⟨not_lt.mp hgen, by simp [hinit], .inl ⟨rfl, .inl hinit⟩⟩
  · exact .inl ⟨⟨_, rfl⟩, .inr ⟨by simpa using hinit, .inl hlt⟩⟩
  · refine .inr ⟨not_lt.mp hgen, ?_, .inr ⟨rfl, by simpa using hinit, heq, hsame⟩⟩
    simp [hlt, hsame]
  · exact .inl ⟨⟨_, rfl⟩, .inr ⟨by simpa using hinit, .inr ⟨heq, by simpa using hsame⟩⟩⟩
  · have hnew : s.snapshot.version < snapshot.version :=
      lt_of_le_of_ne (not_lt.mp hlt) (Ne.symm heq)
    exact .inr ⟨not_lt.mp hgen, by simp [hlt, heq], .inl ⟨rfl, .inr hnew⟩⟩

variable {snapshot : CompositorSnapshot}

theorem accepts_iff {s : Broker} :
    s.Accepts snapshot ↔
      snapshot.version.ownerGeneration ≤ s.installedGeneration ∧ ¬ s.Outdates snapshot := by
  unfold Accepts
  rcases s.observeSnapshot_cases s.installedGeneration snapshot with
    ⟨⟨e, he⟩, hwhy⟩ | ⟨hgen, hout, ⟨he, -⟩ | ⟨he, -⟩⟩
  · rw [he]
    simp only [reduceCtorEq, false_iff, not_and, not_not]
    intro hgen
    exact hwhy.resolve_left (not_lt.mpr hgen)
  · simp [he, hgen, hout]
  · simp [he, hgen, hout]

/-- There is nothing to show where nothing was noted. -/
theorem deliver_length (s : Broker) : s.deliver s.deliveries.length = s := by
  unfold deliver
  rw [List.getElem?_eq_none le_rfl]

theorem observeNow_refused {s : Broker} (h : ¬ s.Accepts snapshot) : s.observeNow snapshot = s := by
  unfold observeNow
  rcases s.observeSnapshot_cases s.installedGeneration snapshot with
    ⟨⟨e, he⟩, -⟩ | ⟨hgen, hout, -⟩
  · rw [he, deliver_length]
  · exact absurd (accepts_iff.mpr ⟨hgen, hout⟩) h

/-- The active command, if there is one, is shown a snapshot. -/
def showActive (s : Broker) (snapshot : CompositorSnapshot) : Broker :=
  match s.convergence with
  | some id =>
    { s with
      worker := if (s.cancelled id).isSome then s.worker else s.worker.observe id snapshot }
  | none => s

theorem deliver_toDeliver (s : Broker) (snapshot : CompositorSnapshot) :
    (s.toDeliver snapshot).deliver s.deliveries.length = s.showActive snapshot := by
  unfold toDeliver showActive
  cases hc : s.convergence with
  | none => exact deliver_length s
  | some id => simp [deliver, List.eraseIdx_append_of_length_le]

theorem store_fields (s : Broker) (snapshot : CompositorSnapshot) :
    (s.store snapshot).snapshot = snapshot ∧
      (s.store snapshot).installedGeneration = s.installedGeneration ∧
      (s.store snapshot).deliveries = s.deliveries := by
  unfold store
  split_ifs
  · exact ⟨rfl, rfl, rfl⟩
  · rw [cancelActive_eq]
    exact ⟨rfl, rfl, rfl⟩

theorem showActive_fields (s : Broker) (snapshot : CompositorSnapshot) :
    (s.showActive snapshot).snapshot = s.snapshot ∧
      (s.showActive snapshot).installedGeneration = s.installedGeneration := by
  unfold showActive
  split <;> exact ⟨rfl, rfl⟩

/-- What an accepted snapshot does: it is the stored one and nothing happens, or it is stored and
shown to the active command. -/
theorem observeNow_accepted {s : Broker} (h : s.Accepts snapshot) :
    s.observeNow snapshot = (s.store snapshot).showActive snapshot ∧
        (s.isInitial = true ∨ s.snapshot.version < snapshot.version) ∨
      s.observeNow snapshot = s ∧ s.isInitial = false ∧
        snapshot.version = s.snapshot.version := by
  obtain ⟨hgen, hout⟩ := accepts_iff.mp h
  unfold observeNow
  rcases s.observeSnapshot_cases s.installedGeneration snapshot with
    ⟨-, hwhy⟩ | ⟨-, -, ⟨he, hnew⟩ | ⟨he, hinit, heq, -⟩⟩
  · rcases hwhy with hwhy | hwhy
    · exact absurd hgen (not_le.mpr hwhy)
    · exact absurd hwhy hout
  · refine .inl ⟨?_, hnew⟩
    rw [he, ← (s.store_fields snapshot).2.2, deliver_toDeliver]
  · refine .inr ⟨?_, hinit, heq⟩
    rw [he, deliver_length]

/-- The stored version does not decrease. -/
theorem version_le_call (s : Broker) (op : GenerationOp) :
    s.snapshot.version ≤ (s.call op).snapshot.version := by
  cases op with
  | setInstalledGeneration generation =>
    rw [call, setInstalledGeneration, drainReplaced, cancelActive_eq]
    exact le_rfl
  | observeSnapshot snapshot =>
    rw [call]
    by_cases h : s.Accepts snapshot
    · rcases observeNow_accepted h with ⟨he, hnew⟩ | ⟨he, -⟩
      · rw [he, (showActive_fields ..).1, (s.store_fields snapshot).1]
        rcases hnew with hinit | hnew
        · have hzero : s.snapshot.version = .zero := by
            simp only [isInitial, Bool.and_eq_true, decide_eq_true_eq] at hinit
            exact hinit.1
          rw [hzero]
          exact DomainVersion.zero_le _
        · exact hnew.le
      · rw [he]
    · rw [observeNow_refused h]

/-! ### A snapshot again -/

/-- A snapshot without a version shows nothing to a command. -/
theorem showActive_zero (h : snapshot.version = .zero) (s : Broker) :
    s.showActive snapshot = s := by
  have hobserve : ∀ a : ActiveCommand, a.observe snapshot = a := by
    intro a
    unfold ActiveCommand.observe
    rw [h, if_pos (.inl (DomainVersion.zero_le _))]
  unfold showActive
  split
  · have hworker : ∀ id, s.worker.observe id snapshot = s.worker := by
      intro id
      cases s.worker <;> simp [Worker.observe, hobserve]
    simp [hworker]
  · rfl

/-- A second snapshot that is not ready finds nothing to end but the epoch. -/
theorem store_store (h : snapshot.connection ≠ .ready) (s : Broker) :
    (s.store snapshot).store snapshot =
      { s.store snapshot with
        epoch := (s.store snapshot).epoch + 1, fences := (s.store snapshot).fences + 1 } := by
  have hended : (s.store snapshot).queue = [] ∧ (s.store snapshot).active = none ∧
      (s.store snapshot).snapshot = snapshot := by
    rw [store, if_neg h, cancelActive_eq]
    exact ⟨rfl, rfl, rfl⟩
  generalize s.store snapshot = t at hended ⊢
  obtain ⟨hqueue, hactive, hsnapshot⟩ := hended
  rw [store, if_neg h, cancelActive_eq]
  cases t
  simp_all [drain, cancelActive]

/-- What is left by an accepted snapshot is left alone by the same snapshot again, except that as
long as there is only the initial snapshot another epoch begins. -/
theorem observeNow_again {s : Broker} (h : s.Accepts snapshot) :
    (s.observeNow snapshot).observeNow snapshot =
      if (s.observeNow snapshot).isInitial then
        { s.observeNow snapshot with
          epoch := (s.observeNow snapshot).epoch + 1
          fences := (s.observeNow snapshot).fences + 1 }
      else s.observeNow snapshot := by
  rcases observeNow_accepted h with ⟨he, -⟩ | ⟨he, hinit, -⟩
  · have hstored : (s.observeNow snapshot).snapshot = snapshot := by
      rw [he, (showActive_fields ..).1, (s.store_fields snapshot).1]
    have hinstalled : (s.observeNow snapshot).installedGeneration = s.installedGeneration := by
      rw [he, (showActive_fields ..).2, (s.store_fields snapshot).2.1]
    by_cases hagain : (s.observeNow snapshot).Accepts snapshot
    · rcases observeNow_accepted hagain with ⟨he', hnew⟩ | ⟨he', hinit', -⟩
      · have hinit := hnew.resolve_right (by rw [hstored]; exact lt_irrefl _)
        rw [if_pos hinit, he']
        simp only [isInitial, hstored, Bool.and_eq_true, Bool.or_eq_true,
          decide_eq_true_eq] at hinit
        have hready : snapshot.connection ≠ .ready := by
          rcases hinit.2 with hc | hc <;> simp [hc]
        rw [showActive_zero hinit.1, he, showActive_zero hinit.1, store_store hready]
      · rw [he', hinit']
        simp
    · rw [observeNow_refused hagain, if_neg]
      intro hinit
      refine hagain (accepts_iff.mpr ⟨?_, fun hout => ?_⟩)
      · rw [hinstalled]
        exact (accepts_iff.mp h).1
      · rw [hout.1] at hinit
        cases hinit
  · rw [he, he, hinit]
    simp

/-! ### Main results -/

/-- No snapshot of an owner that has been replaced comes that is as new as what is stored. -/
def OnlyCurrentOwner (s : Broker) : GenerationOp → Prop
  | .setInstalledGeneration _ => True
  | .observeSnapshot snapshot =>
    snapshot.version.ownerGeneration < s.installedGeneration → s.Outdates snapshot

/-- **The generation fence.** In a sequence of calls on a broker in any state, every snapshot
accepted is of the installed generation if and only if none of a replaced owner comes that the
stored one does not outdate. In all of them the stored version does not decrease, a refused
snapshot changes nothing, and neither does an accepted one that comes again, unless to begin
another epoch while there is only the initial snapshot. -/
theorem generation_fence (s : Broker) (ops : List GenerationOp) :
    ((∀ pre snapshot post, ops = pre ++ GenerationOp.observeSnapshot snapshot :: post →
        (run call s pre).Accepts snapshot →
          snapshot.version.ownerGeneration = (run call s pre).installedGeneration) ↔
      Along call OnlyCurrentOwner s ops) ∧
    (∀ pre mid post, ops = pre ++ mid ++ post →
      (run call s pre).snapshot.version ≤ (run call s (pre ++ mid)).snapshot.version) ∧
    (∀ pre snapshot post, ops = pre ++ GenerationOp.observeSnapshot snapshot :: post →
      ¬ (run call s pre).Accepts snapshot →
        run call s (pre ++ [GenerationOp.observeSnapshot snapshot]) = run call s pre) ∧
    ∀ pre snapshot post,
      ops = pre ++ GenerationOp.observeSnapshot snapshot :: .observeSnapshot snapshot :: post →
        (run call s pre).Accepts snapshot →
          run call s (pre ++ [GenerationOp.observeSnapshot snapshot, .observeSnapshot snapshot]) =
            if (run call s (pre ++ [GenerationOp.observeSnapshot snapshot])).isInitial then
              { run call s (pre ++ [GenerationOp.observeSnapshot snapshot]) with
                epoch := (run call s (pre ++ [GenerationOp.observeSnapshot snapshot])).epoch + 1
                fences := (run call s (pre ++ [GenerationOp.observeSnapshot snapshot])).fences + 1 }
            else run call s (pre ++ [GenerationOp.observeSnapshot snapshot]) := by
  refine ⟨?_, ?_, ?_, ?_⟩
  · rw [along_iff]
    constructor
    · rintro h pre (generation | snapshot) post hops
      · trivial
      · intro hlt
        by_contra hout
        have := h pre snapshot post hops (accepts_iff.mpr ⟨hlt.le, hout⟩)
        omega
    · intro h pre snapshot post hops hacc
      obtain ⟨hle, hout⟩ := accepts_iff.mp hacc
      refine le_antisymm hle (not_lt.mp fun hlt => ?_)
      exact hout (h pre (.observeSnapshot snapshot) post hops hlt)
  · rintro pre mid post -
    rw [run_append]
    generalize run call s pre = s
    induction mid generalizing s with
    | nil => exact le_rfl
    | cons op mid ih => exact (version_le_call s op).trans (ih (s.call op))
  · intro pre snapshot post _ hrefused
    rw [run_append]
    exact observeNow_refused hrefused
  · intro pre snapshot post _ hacc
    simp only [run_append, run_cons, run_nil, call]
    exact observeNow_again hacc

/-- The second owner has been installed when another snapshot of the first comes, newer than the
last; it is accepted. -/
theorem late_snapshot_accepted :
    (run call (new 32) [.setInstalledGeneration 1, .observeSnapshot (readySnapshot ⟨1, 1⟩),
        .setInstalledGeneration 2]).Accepts (readySnapshot ⟨1, 2⟩) ∧
      (run call (new 32) [.setInstalledGeneration 1, .observeSnapshot (readySnapshot ⟨1, 1⟩),
        .setInstalledGeneration 2]).installedGeneration = 2 :=
  ⟨rfl, rfl⟩

end Broker

end Shilpo.Compositor

import Shilpo.Theme.State
import Shilpo.Theory.Runs

/-!
# The client of the theme daemon

`desktop/theme-daemon/src/client.rs`. A client holds the last state that it has been told. Signals
arrive in order; the answer to a question, and the answer to a method, which waits until the state
is on the disk, arrive when they do. A signal or the answer to a question that is older than what
the client has is passed over; the answer to a method is not (`client_goes_back`). So the client
never goes back exactly where no answer to a method arrives after something newer
(`client_never_back`).
-/

namespace Shilpo.Theme

open Theory

variable {Palettes : Type}

/-! ### The client -/

/-- What a client knows, and what it has told those that listen to it. -/
structure ThemeClient (Palettes : Type) where
  currentState : DaemonState Palettes
  published : List (ThemeUpdate Palettes)

namespace ThemeClient

variable (client : ThemeClient Palettes)

def forceUpdateState (state : DaemonState Palettes) : ThemeClient Palettes :=
  ⟨state, client.published ++ [⟨state, .full⟩]⟩

def handleSignalUpdate (update : ThemeUpdate Palettes) : ThemeClient Palettes :=
  if client.currentState.theme.revision ≤ update.state.theme.revision then
    ⟨update.state, client.published ++ [update]⟩
  else client

def updateStateIfNewer (state : DaemonState Palettes) : ThemeClient Palettes :=
  client.handleSignalUpdate ⟨state, .full⟩

def applyResponse (state : DaemonState Palettes) : ThemeClient Palettes :=
  client.forceUpdateState state

def revision : ℕ := client.currentState.theme.revision

end ThemeClient

/-! ### What is on its way -/

/-- An answer that is on its way. -/
inductive Answer (Palettes : Type) where
  /-- To `GetState`. -/
  | toQuery (state : DaemonState Palettes)
  /-- To a method that sets something. -/
  | toMethod (state : DaemonState Palettes)

def Answer.state : Answer Palettes → DaemonState Palettes
  | .toQuery state | .toMethod state => state

/-- The daemon, the client, and what is on its way from one to the other. -/
structure ThemeBus (Palettes : Type) where
  daemon : DaemonState Palettes
  signals : List (ThemeUpdate Palettes)
  answers : List (Answer Palettes)
  client : ThemeClient Palettes

/-- What happens next. -/
inductive BusStep (Palettes : Type) where
  /-- The daemon commits a state, and emits it. -/
  | commit (update : ThemeUpdate Palettes)
  /-- The daemon answers with its state; to a question, or to a method. -/
  | answer (toMethod : Bool)
  /-- The oldest signal arrives. -/
  | signal
  /-- One of the answers arrives. -/
  | arrive (index : ℕ)

/-- Something that has arrived: the revision that it carries, and whether it is the answer to a
method. -/
structure Delivery where
  revision : ℕ
  isMethod : Bool
  deriving DecidableEq

def Answer.delivery : Answer Palettes → Delivery
  | .toQuery state => ⟨state.theme.revision, false⟩
  | .toMethod state => ⟨state.theme.revision, true⟩

def ThemeClient.receive (client : ThemeClient Palettes) : Answer Palettes → ThemeClient Palettes
  | .toQuery state => client.updateStateIfNewer state
  | .toMethod state => client.applyResponse state

namespace ThemeBus

variable (bus : ThemeBus Palettes)

/-- Nothing is on its way. -/
def start (daemon client : DaemonState Palettes) : ThemeBus Palettes :=
  ⟨daemon, [], [], ⟨client, []⟩⟩

/-- A state is committed only if its revision is greater. -/
def next : BusStep Palettes → ThemeBus Palettes
  | .commit update =>
    if bus.daemon.theme.revision < update.state.theme.revision then
      { bus with daemon := update.state, signals := bus.signals ++ [update] }
    else bus
  | .answer toMethod =>
    { bus with
      answers := bus.answers ++ [if toMethod then .toMethod bus.daemon else .toQuery bus.daemon] }
  | .signal =>
    match bus.signals with
    | [] => bus
    | update :: signals =>
      { bus with signals, client := bus.client.handleSignalUpdate update }
  | .arrive index =>
    match bus.answers[index]? with
    | none => bus
    | some answer =>
      { bus with answers := bus.answers.eraseIdx index, client := bus.client.receive answer }

/-- What arrives. -/
def delivered : BusStep Palettes → List Delivery
  | .signal => (bus.signals.head?.map fun update => ⟨update.state.theme.revision, false⟩).toList
  | .arrive index => (bus.answers[index]?.map (·.delivery)).toList
  | _ => []

/-! ### What is promised -/

/-- The revision that the client has does not decrease. -/
def Advances (step : BusStep Palettes) : Prop :=
  bus.client.revision ≤ (bus.next step).client.revision

/-- When everything has arrived, the client has the greatest revision that has. -/
def EndsNewest (deliveries : List Delivery) : Prop :=
  bus.signals = [] → bus.answers = [] → deliveries ≠ [] →
    (∃ delivery ∈ deliveries, delivery.revision = bus.client.revision) ∧
      ∀ delivery ∈ deliveries, delivery.revision ≤ bus.client.revision

end ThemeBus

/-! ### What keeps it -/

/-- No answer to a method arrives after something newer. -/
def InOrder (deliveries : List Delivery) : Prop :=
  ∀ before delivery after, deliveries = before ++ delivery :: after → delivery.isMethod = true →
    ∀ earlier ∈ before, earlier.revision ≤ delivery.revision

/-! ### Revisions -/

/-- The revision that the client has when something has arrived. -/
def Delivery.take (revision : ℕ) (delivery : Delivery) : ℕ :=
  if delivery.isMethod then delivery.revision else max revision delivery.revision

/-- What arrives does not take the client back. -/
abbrev Delivery.Raises (revision : ℕ) (delivery : Delivery) : Prop :=
  revision ≤ delivery.take revision

theorem ThemeClient.revision_handleSignalUpdate (client : ThemeClient Palettes)
    (update : ThemeUpdate Palettes) : (client.handleSignalUpdate update).revision =
      Delivery.take client.revision ⟨update.state.theme.revision, false⟩ := by
  rw [Delivery.take, if_neg Bool.false_ne_true]
  unfold handleSignalUpdate revision
  split_ifs with h
  · exact (max_eq_right h).symm
  · exact (max_eq_left (Nat.le_of_not_le h)).symm

theorem ThemeClient.revision_receive (client : ThemeClient Palettes) (answer : Answer Palettes) :
    (client.receive answer).revision = answer.delivery.take client.revision := by
  cases answer with
  | toQuery state => exact client.revision_handleSignalUpdate _
  | toMethod state => rfl

namespace ThemeBus

variable (bus : ThemeBus Palettes)

/-- The client takes what arrives, and nothing else. -/
theorem revision_next (step : BusStep Palettes) :
    (bus.next step).client.revision =
      run Delivery.take bus.client.revision (bus.delivered step) := by
  cases step with
  | commit update =>
    unfold next
    dsimp only
    split_ifs <;> rfl
  | answer toMethod => rfl
  | signal =>
    unfold next delivered
    cases bus.signals with
    | nil => rfl
    | cons update signals => exact bus.client.revision_handleSignalUpdate update
  | arrive index =>
    cases hanswer : bus.answers[index]? with
    | none => simp [next, delivered, hanswer]
    | some answer =>
      simp only [next, delivered, hanswer, Option.map_some, Option.toList_some, run_cons, run_nil]
      exact bus.client.revision_receive answer

theorem revision_run (steps : List (BusStep Palettes)) :
    (run next bus steps).client.revision =
      run Delivery.take bus.client.revision (expand next delivered bus steps) := by
  induction steps generalizing bus with
  | nil => rfl
  | cons step steps ih => rw [run_cons, ih, expand, run_append, revision_next]

/-- At most one thing arrives in a step. -/
theorem delivered_eq (step : BusStep Palettes) :
    bus.delivered step = [] ∨ ∃ delivery, bus.delivered step = [delivery] := by
  cases step with
  | commit | answer => exact .inl rfl
  | signal => cases h : bus.signals <;> simp [delivered, h]
  | arrive index => cases h : bus.answers[index]? <;> simp [delivered, h]

/-- The revision of the client never decreases where what arrives does not take it back. -/
theorem along_advances_iff (steps : List (BusStep Palettes)) :
    Along next Advances bus steps ↔
      Along Delivery.take Delivery.Raises bus.client.revision
        (expand next delivered bus steps) := by
  induction steps generalizing bus with
  | nil => exact Iff.rfl
  | cons step steps ih =>
    rw [Along, ih, expand, along_append, Advances, revision_next]
    refine and_congr ?_ Iff.rfl
    rcases bus.delivered_eq step with hnone | ⟨delivery, hone⟩
    · simp [hnone, Along]
    · simp [hone, Along]

end ThemeBus

/-! ### The order in which things arrive -/

/-- While the revision never decreases, it is the greatest there has been. -/
theorem run_take {revision : ℕ} {deliveries : List Delivery}
    (h : Along Delivery.take Delivery.Raises revision deliveries) :
    run Delivery.take revision deliveries = (deliveries.map (·.revision)).foldl max revision := by
  induction deliveries generalizing revision with
  | nil => rfl
  | cons delivery deliveries ih =>
    have htake : delivery.take revision = max revision delivery.revision := by
      have hraises := h.1
      unfold Delivery.Raises Delivery.take at hraises
      unfold Delivery.take
      split_ifs at hraises ⊢
      · exact (max_eq_right hraises).symm
      · rfl
    rw [run_cons, List.map_cons, List.foldl_cons, ← htake]
    exact ih h.2

theorem foldl_max_le_iff {revision bound : ℕ} {deliveries : List Delivery} :
    (deliveries.map (·.revision)).foldl max revision ≤ bound ↔
      revision ≤ bound ∧ ∀ delivery ∈ deliveries, delivery.revision ≤ bound := by
  induction deliveries generalizing revision with
  | nil => simp
  | cons delivery deliveries ih => simp [ih, and_assoc]

theorem inOrder_append_singleton {deliveries : List Delivery} {delivery : Delivery} :
    InOrder (deliveries ++ [delivery]) ↔ InOrder deliveries ∧ (delivery.isMethod = true →
      ∀ earlier ∈ deliveries, earlier.revision ≤ delivery.revision) := by
  constructor
  · intro h
    refine ⟨fun before method after hsplit => ?_, h deliveries delivery [] rfl⟩
    exact h before method (after ++ [delivery]) (by rw [hsplit]; simp)
  · rintro ⟨h, hlast⟩ before method after hsplit hmethod
    rcases snoc_eq_append_cons hsplit with ⟨-, rfl, rfl⟩ | ⟨after, -, hbefore⟩
    · exact hlast hmethod
    · exact h before method after hbefore hmethod

/-- The revision never decreases exactly where what arrives is in order. -/
theorem along_take_iff {revision : ℕ} {deliveries : List Delivery}
    (hrevision : ∀ delivery ∈ deliveries, revision ≤ delivery.revision) :
    Along Delivery.take Delivery.Raises revision deliveries ↔ InOrder deliveries := by
  induction deliveries using List.reverseRecOn with
  | nil => exact iff_of_true trivial fun _ _ _ hsplit => by simp at hsplit
  | append_singleton deliveries delivery ih =>
    have hfirst := hrevision delivery (by simp)
    rw [along_append, inOrder_append_singleton,
      ih fun delivery hmem => hrevision delivery (List.mem_append_left _ hmem)]
    refine and_congr_right fun hinOrder => ?_
    have halong := (ih fun delivery hmem =>
      hrevision delivery (List.mem_append_left _ hmem)).mpr hinOrder
    simp only [Along, and_true]
    rw [Delivery.Raises, Delivery.take, run_take halong]
    cases delivery.isMethod with
    | true => simp [foldl_max_le_iff, hfirst]
    | false => simp

/-- The greatest of what has arrived is the greatest there has been, where there is one. -/
theorem exists_eq_foldl_max {revision : ℕ} {deliveries : List Delivery}
    (hrevision : ∀ delivery ∈ deliveries, revision ≤ delivery.revision) (hne : deliveries ≠ []) :
    ∃ delivery ∈ deliveries,
      delivery.revision = (deliveries.map (·.revision)).foldl max revision := by
  induction deliveries using List.reverseRecOn with
  | nil => exact absurd rfl hne
  | append_singleton deliveries delivery ih =>
    rw [List.map_append, List.foldl_append]
    by_cases hempty : deliveries = []
    · subst hempty
      exact ⟨delivery, by simp, (max_eq_right (hrevision delivery (by simp))).symm⟩
    · obtain ⟨earlier, hmem, hearlier⟩ := ih (fun delivery hmem =>
        hrevision delivery (List.mem_append_left _ hmem)) hempty
      simp only [List.map_cons, List.map_nil, List.foldl_cons, List.foldl_nil, ← hearlier]
      rcases le_total earlier.revision delivery.revision with hle | hle
      · exact ⟨delivery, by simp, (max_eq_right hle).symm⟩
      · exact ⟨earlier, by simp [hmem], (max_eq_left hle).symm⟩

namespace ThemeBus

/-- Nothing is older than what the daemon had when the client came. -/
structure Since (revision : ℕ) (bus : ThemeBus Palettes) : Prop where
  daemon : revision ≤ bus.daemon.theme.revision
  signals : ∀ update ∈ bus.signals, revision ≤ update.state.theme.revision
  answers : ∀ answer ∈ bus.answers, revision ≤ answer.state.theme.revision

theorem Since.next {revision : ℕ} {bus : ThemeBus Palettes} (h : bus.Since revision)
    (step : BusStep Palettes) : (bus.next step).Since revision := by
  cases step with
  | commit update =>
    unfold ThemeBus.next
    dsimp only
    split_ifs with hnewer
    · have hupdate := h.daemon.trans hnewer.le
      refine ⟨hupdate, fun other hmem => ?_, h.answers⟩
      rcases List.mem_append.mp hmem with hmem | hmem
      · exact h.signals other hmem
      · rw [List.mem_singleton.mp hmem]
        exact hupdate
    · exact h
  | answer toMethod =>
    refine ⟨h.daemon, h.signals, fun answer hmem => ?_⟩
    rcases List.mem_append.mp hmem with hmem | hmem
    · exact h.answers answer hmem
    · rw [List.mem_singleton.mp hmem]
      cases toMethod <;> exact h.daemon
  | signal =>
    unfold ThemeBus.next
    cases hsignals : bus.signals with
    | nil => exact h
    | cons update signals =>
      refine ⟨h.daemon, fun other hmem => h.signals other ?_, h.answers⟩
      rw [hsignals]
      exact List.mem_cons_of_mem _ hmem
  | arrive index =>
    unfold ThemeBus.next
    dsimp only
    split
    · exact h
    · exact ⟨h.daemon, h.signals, fun answer hmem =>
        h.answers answer (List.mem_of_mem_eraseIdx hmem)⟩

theorem Since.delivered {revision : ℕ} {bus : ThemeBus Palettes} (h : bus.Since revision)
    (steps : List (BusStep Palettes)) :
    ∀ delivery ∈ expand ThemeBus.next ThemeBus.delivered bus steps,
      revision ≤ delivery.revision := by
  induction steps generalizing bus with
  | nil => exact fun _ hmem => by cases hmem
  | cons step steps ih =>
    intro delivery hmem
    rcases List.mem_append.mp hmem with hmem | hmem
    · cases step with
      | commit | answer => cases hmem
      | signal =>
        simp only [ThemeBus.delivered, Option.mem_toList] at hmem
        obtain ⟨update, hupdate, rfl⟩ := Option.map_eq_some_iff.mp hmem
        exact h.signals update (List.mem_of_mem_head? hupdate)
      | arrive index =>
        simp only [ThemeBus.delivered, Option.mem_toList] at hmem
        obtain ⟨answer, hanswer, rfl⟩ := Option.map_eq_some_iff.mp hmem
        have hsince := h.answers answer (List.mem_of_getElem? hanswer)
        cases answer <;> exact hsince
    · exact ih (h.next step) delivery hmem

end ThemeBus

/-- **The client never goes back**, and ends with the newest state that it has been told, exactly
where no answer to a method arrives after something newer. -/
theorem client_never_back {daemon client : DaemonState Palettes}
    (h : client.theme.revision ≤ daemon.theme.revision) (steps : List (BusStep Palettes)) :
    let start := ThemeBus.start daemon client
    let deliveries := expand ThemeBus.next ThemeBus.delivered start steps
    Along ThemeBus.next ThemeBus.Advances start steps ∧
      (run ThemeBus.next start steps).EndsNewest deliveries ↔ InOrder deliveries := by
  intro start deliveries
  have hsince : (ThemeBus.start daemon client).Since client.theme.revision :=
    ⟨h, (fun _ hmem => by cases hmem), (fun _ hmem => by cases hmem)⟩
  have hdeliveries := hsince.delivered steps
  have hiff := (start.along_advances_iff steps).trans (along_take_iff hdeliveries)
  refine ⟨fun hadvances => hiff.mp hadvances.1, fun hinOrder => ⟨hiff.mpr hinOrder, ?_⟩⟩
  intro _ _ hne
  have hrevision := (start.revision_run steps).trans
    (run_take ((along_take_iff hdeliveries).mpr hinOrder))
  rw [hrevision]
  exact ⟨exists_eq_foldl_max hdeliveries hne, (foldl_max_le_iff.mp le_rfl).2⟩

namespace Sample

/-- A state of this revision. -/
def revised (revision : ℕ) : DaemonState Unit :=
  ⟨⟨revision, .system, .light, .wallpaper, .auto, 0, none, "", ()⟩, none, none, .auto,
    .text "~/Pictures/Wallpapers"⟩

/-- A method is answered when its state is on the disk; another one has been set before that. -/
def overtaken : List (BusStep Unit) :=
  [.commit ⟨revised 2, .full⟩, .answer true, .commit ⟨revised 3, .full⟩, .signal, .signal,
    .arrive 0]

/-- The answer arrives between the signals. -/
def inTime : List (BusStep Unit) :=
  [.commit ⟨revised 2, .full⟩, .answer true, .commit ⟨revised 3, .full⟩, .signal, .arrive 0,
    .signal]

end Sample

theorem client_never_back_inTime :
    Along ThemeBus.next ThemeBus.Advances (.start (Sample.revised 1) (Sample.revised 1))
        Sample.inTime ∧
      (run ThemeBus.next (.start (Sample.revised 1) (Sample.revised 1)) Sample.inTime).EndsNewest
        (expand ThemeBus.next ThemeBus.delivered (.start (Sample.revised 1) (Sample.revised 1))
          Sample.inTime) :=
  (client_never_back (by decide) Sample.inTime).mpr
    ((@along_take_iff 1 _ (by decide +kernel)).mp (by decide +kernel))

/-- The client goes back to the state that its own method had set, and stays there. -/
theorem client_goes_back :
    ¬ Along ThemeBus.next ThemeBus.Advances (.start (Sample.revised 1) (Sample.revised 1))
        Sample.overtaken ∧
      ¬ (run ThemeBus.next (.start (Sample.revised 1) (Sample.revised 1))
        Sample.overtaken).EndsNewest (expand ThemeBus.next ThemeBus.delivered
          (.start (Sample.revised 1) (Sample.revised 1)) Sample.overtaken) := by
  refine ⟨fun h => ?_, fun h => ?_⟩
  · have hback := h.2.2.2.2.2.1
    exact absurd hback (by unfold ThemeBus.Advances; decide +kernel)
  · have hnewest := (h rfl rfl (by decide +kernel)).2 ⟨3, false⟩ (by decide +kernel)
    exact absurd hnewest (by decide +kernel)

end Shilpo.Theme

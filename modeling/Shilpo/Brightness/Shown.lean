import Shilpo.Brightness.Service
import Shilpo.Theory.Places

/-!
# The service shows what the hardware was told

When nothing is under way any more, a listed display whose change was requested is to show what
was last written to it. `eventual` is what will have been written to a display once the commands
sent, and those about to be, have gone through the worker; it does not change while they do. So the
display is right if its listed percentage is the eventual one, which is so in a run whose steps are
`Faithful` (`shown_of_faithful`):

* a change is published only over the value that it was made from, and while no other call has
  published and not sent its command;
* it changes only displays that were listed at the start, since the worker knows no others;
* the channel has room for its command;
* a rescan does not list the primary display anew with another percentage.
-/

namespace Shilpo.Brightness

open Shilpo.Theory

/-! ### Lists -/

section Lists

theorem lookup_cons_eq {k other : String} {v : ℕ} {entries : List (String × ℕ)} :
    ((k, v) :: entries).lookup other = if other = k then some v else entries.lookup other := by
  rw [List.lookup_cons]
  by_cases hk : other = k
  · rw [if_pos hk, beq_iff_eq.mpr hk]
  · rw [if_neg hk, beq_eq_false_iff_ne.mpr hk]

end Lists

/-! ### The published list -/

namespace BrightnessInfo

variable {info : BrightnessInfo} {id : String} {percentage : ℕ}
  {displays : List DisplayBrightnessInfo}

theorem map_id_setFirst :
    (setFirst id percentage displays).map (·.id) = displays.map (·.id) := by
  induction displays with
  | nil => rfl
  | cons d displays ih =>
    rw [setFirst]
    split
    · rfl
    · rw [List.map_cons, List.map_cons, ih]

theorem map_id_applied (command : BrightnessCmd) :
    (info.applied command).displays.map (·.id) = info.displays.map (·.id) := by
  cases command with
  | setAll percentage => simp [applied]
  | setDisplay id percentage => exact map_id_setFirst

/-- A display of the changed list has another id and is as it was, or has the percentage, or has
the id a second time. -/
theorem mem_setFirst {d : DisplayBrightnessInfo} (h : d ∈ setFirst id percentage displays)
    (hid : d.id = id) (honce : (displays.map (·.id)).count id ≤ 1) : d.percentage = percentage := by
  induction displays with
  | nil => exact absurd h List.not_mem_nil
  | cons e displays ih =>
    rw [setFirst] at h
    rw [List.map_cons, List.count_cons] at honce
    by_cases he : e.id = id
    · rw [if_pos he] at h
      rcases List.mem_cons.mp h with rfl | hmem
      · rfl
      · have hcount : 0 < (displays.map (·.id)).count id :=
          List.count_pos_iff.mpr (hid ▸ List.mem_map_of_mem hmem)
        simp only [he, beq_self_eq_true, if_true] at honce
        omega
    · rw [if_neg he] at h
      rcases List.mem_cons.mp h with rfl | hmem
      · exact absurd hid he
      · exact ih hmem (by omega)

theorem mem_of_mem_setFirst {d : DisplayBrightnessInfo}
    (h : d ∈ setFirst id percentage displays) (hid : d.id ≠ id) : d ∈ displays := by
  induction displays with
  | nil => exact absurd h List.not_mem_nil
  | cons e displays ih =>
    rw [setFirst] at h
    split at h
    · next he =>
      rcases List.mem_cons.mp h with rfl | hmem
      · exact absurd he hid
      · exact List.mem_cons_of_mem _ hmem
    · rcases List.mem_cons.mp h with rfl | hmem
      · exact List.mem_cons_self
      · exact List.mem_cons_of_mem _ (ih hmem)

/-- The first display with an id, after the first one with some id got a percentage. -/
theorem find_setFirst (other : String) :
    (setFirst id percentage displays).find? (·.id = other) =
      (displays.find? (·.id = other)).map fun d =>
        if other = id then { d with percentage := percentage } else d := by
  induction displays with
  | nil => rfl
  | cons d displays ih =>
    rw [setFirst]
    by_cases hd : d.id = id
    · rw [if_pos hd]
      by_cases hother : d.id = other
      · rw [List.find?_cons_of_pos (by simpa using hother),
          List.find?_cons_of_pos (by simpa using hother), Option.map_some,
          if_pos (hother.symm.trans hd)]
      · have hne : other ≠ id := fun heq => hother (hd.trans heq.symm)
        rw [List.find?_cons_of_neg (by simpa using hother),
          List.find?_cons_of_neg (by simpa using hother)]
        simp [hne]
    · rw [if_neg hd]
      by_cases hother : d.id = other
      · have hne : other ≠ id := fun heq => hd (hother.trans heq)
        rw [List.find?_cons_of_pos (by simpa using hother),
          List.find?_cons_of_pos (by simpa using hother), Option.map_some, if_neg hne]
      · rw [List.find?_cons_of_neg (by simpa using hother),
          List.find?_cons_of_neg (by simpa using hother), ih]

/-- The percentage of the whole is that of the primary display. -/
def Overall (info : BrightnessInfo) : Prop :=
  ∀ d, info.primary = some d → d.percentage = info.percentage

/-- A change keeps the percentage of the whole with that of the primary display. -/
theorem Overall.applied (h : info.Overall) (command : BrightnessCmd) :
    (info.applied command).Overall := by
  intro d hd
  rw [primary, Option.bind_eq_some_iff] at hd
  obtain ⟨pid, hpid, hd⟩ := hd
  cases command with
  | setAll percentage =>
    have hmem : d ∈ info.displays.map fun d => { d with percentage := percentage } :=
      List.mem_of_find?_eq_some hd
    obtain ⟨e, -, rfl⟩ := List.mem_map.mp hmem
    rfl
  | setDisplay id percentage =>
    have hd : (setFirst id percentage info.displays).find? (·.id = pid) = some d := hd
    have hpid : info.primaryDisplayId = some pid := hpid
    rw [find_setFirst, Option.map_eq_some_iff] at hd
    obtain ⟨e, he, rfl⟩ := hd
    have hprimary : info.primary = some e := by rw [primary, hpid]; exact he
    change _ = if info.primaryDisplayId = some id then percentage else info.percentage
    by_cases hid : pid = id
    · rw [if_pos hid, if_pos (hpid.trans (congrArg some hid))]
    · rw [if_neg hid, if_neg fun heq => hid (Option.some.inj (hpid.symm.trans heq))]
      exact h e hprimary

/-- The displays that are listed anew do not give the primary display another percentage; `stay`
are those that stay listed. -/
def KeepsPrimary (info : BrightnessInfo) (stay new : List DisplayBrightnessInfo) : Prop :=
  ∀ pid, info.primaryDisplayId = some pid → stay.find? (·.id = pid) = none →
    ∀ d, new.find? (·.id = pid) = some d → d.percentage = info.percentage

theorem Overall.listed (h : info.Overall) {stay new : List DisplayBrightnessInfo}
    {info' : BrightnessInfo} (hkeeps : info.KeepsPrimary stay new)
    (hstay : ∀ pid d, stay.find? (·.id = pid) = some d → info.display pid = some d)
    (hdisplays : info'.displays = stay ++ new)
    (hprimary : info'.primaryDisplayId = info.primaryDisplayId)
    (hpercentage : info'.percentage = info.percentage) : info'.Overall := by
  intro d hd
  rw [primary, Option.bind_eq_some_iff, hprimary] at hd
  obtain ⟨pid, hpid, hd⟩ := hd
  rw [display, hdisplays, List.find?_append] at hd
  rw [hpercentage]
  cases hfound : stay.find? (·.id = pid) with
  | none =>
    rw [hfound] at hd
    exact hkeeps pid hpid hfound d hd
  | some e =>
    rw [hfound] at hd
    obtain rfl := Option.some.inj hd
    exact h e (by rw [primary, hpid]; exact hstay pid e hfound)

end BrightnessInfo

/-! ### Ids -/

theorem backlight_id_ne (b : Backlight) (d : DdcDisplay) : d.display.id ≠ b.display.id := by
  intro heq
  have := congrArg String.toList heq
  simp [DdcDisplay.display, Backlight.display] at this

namespace BrightnessService

variable {s : BrightnessService} {id : String} {percentage : ℕ}

/-! ### What will have been written -/

variable {pending : List (String × ℕ)}

theorem lookup_filter_ne {other : String} (h : other ≠ id) :
    (pending.filter (·.1 ≠ id)).lookup other = pending.lookup other := by
  induction pending with
  | nil => rfl
  | cons entry pending ih =>
    obtain ⟨k, v⟩ := entry
    by_cases hk : k = id
    · rw [List.filter_cons_of_neg (by simpa using hk), ih, lookup_cons_eq,
        if_neg fun heq => h (heq.trans hk)]
    · rw [List.filter_cons_of_pos (by simpa using hk), lookup_cons_eq, lookup_cons_eq, ih]

theorem lookup_insert (pending : List (String × ℕ)) (other : String) :
    (insert id percentage pending).lookup other =
      if other = id then some percentage else pending.lookup other := by
  rw [insert, lookup_cons_eq]
  by_cases hid : other = id
  · rw [if_pos hid, if_pos hid]
  · rw [if_neg hid, if_neg hid, lookup_filter_ne hid]

theorem nodup_insert (h : (pending.map Prod.fst).Nodup) :
    ((insert id percentage pending).map Prod.fst).Nodup := by
  rw [insert, List.map_cons, List.nodup_cons]
  refine ⟨fun hmem => ?_, h.sublist (List.filter_sublist.map _)⟩
  obtain ⟨entry, hentry, rfl⟩ := List.mem_map.mp hmem
  exact absurd rfl (of_decide_eq_true (List.mem_filter.mp hentry).2)

/-- The percentage that a command has written to a display. -/
def value (displayMap : List DisplayBrightnessInfo) (id : String) : BrightnessCmd → Option ℕ
  | .setDisplay other percentage => if id = other then some (min percentage 100) else none
  | .setAll percentage =>
    if id ∈ displayMap.map (·.id) then some (min percentage 100) else none

/-- A command replaces what is pending for the displays that it is for. -/
theorem lookup_queueCmd (displayMap : List DisplayBrightnessInfo) (pending : List (String × ℕ))
    (command : BrightnessCmd) (id : String) :
    (queueCmd displayMap pending command).lookup id =
      (value displayMap id command).or (pending.lookup id) := by
  cases command with
  | setDisplay other percentage =>
    rw [queueCmd, lookup_insert, value]
    split <;> rfl
  | setAll percentage =>
    simp only [queueCmd, value]
    induction displayMap generalizing pending with
    | nil => rfl
    | cons d displayMap ih =>
      rw [List.foldl_cons, ih, lookup_insert, List.map_cons]
      by_cases hid : id = d.id
      · rw [if_pos hid, if_pos (List.mem_cons.mpr (.inl hid))]
        split <;> rfl
      · rw [if_neg hid]
        refine congrArg (Option.or · _) (if_congr ?_ rfl rfl)
        rw [List.mem_cons, or_iff_right hid]

theorem nodup_queueCmd {displayMap : List DisplayBrightnessInfo} (h : (pending.map Prod.fst).Nodup)
    (command : BrightnessCmd) :
    ((queueCmd displayMap pending command).map Prod.fst).Nodup := by
  cases command with
  | setDisplay other percentage => exact nodup_insert h
  | setAll percentage =>
    rw [queueCmd]
    induction displayMap generalizing pending with
    | nil => exact h
    | cons d displayMap ih => exact ih (nodup_insert h)

/-- The commands sent and about to be sent. -/
def due (s : BrightnessService) : List BrightnessCmd :=
  s.channel ++ s.calls.filterMap CallPhase.sending?

/-- What is written to a display in the end, after `commands`, where `last` is now. -/
def afterAll (displayMap : List DisplayBrightnessInfo) (id : String) (last : Option ℕ)
    (commands : List BrightnessCmd) : Option ℕ :=
  commands.foldl (fun last command => (value displayMap id command).or last) last

/-- What will have been written to a display when the commands are carried out. -/
def eventual (s : BrightnessService) (id : String) : Option ℕ :=
  afterAll s.displayMap id ((s.pending.lookup id).or (s.written.lookup id)) s.due

/-- The change that a call publishes is faithful: its command will reach the hardware. -/
def Faithful (s : BrightnessService) : BrightnessStep → Prop
  | .advance i =>
    match s.calls[i]? with
    | some (.publishing read command) =>
      s.info = read ∧ s.calls.filterMap CallPhase.sending? = [] ∧
        ∀ id ∈ read.changed command, id ∈ s.displayMap.map (·.id)
    | some (.sending command) => s.channel.length < channelCapacity ∨ s.info.changed command = []
    | _ => True
  | .discovered new _ => s.info.KeepsPrimary s.info.displays (new.map DdcDisplay.display)
  | .rescanned new _ =>
    s.info.KeepsPrimary (s.info.displays.filter fun d => !d.backend.isDdc)
      (new.map DdcDisplay.display)
  | _ => True

/-! ### The invariant -/

/-- The percentage of a command is one that can be written. -/
def Clamped : CallPhase → Prop
  | .set (.setAll percentage) | .set (.setDisplay _ percentage)
  | .publishing _ (.setAll percentage) | .publishing _ (.setDisplay _ percentage) =>
    percentage ≤ 100
  | _ => True

/-- The display is one of those at the start, or behind DDC. -/
def FromStart (s : BrightnessService) (d : DisplayBrightnessInfo) : Prop :=
  if d.backend.isDdc then ∃ e : DdcDisplay, d.id = e.display.id
  else d.id ∈ s.displayMap.map (·.id)

/-- What holds all the time. -/
structure Inv (s : BrightnessService) : Prop where
  internal : ∀ id ∈ s.displayMap.map (·.id), ∃ b : Backlight, id = b.display.id
  listed : ∀ d ∈ s.info.displays, s.FromStart d
  once : ∀ id ∈ s.displayMap.map (·.id), (s.info.displays.map (·.id)).count id ≤ 1
  mapped : ∀ id ∈ s.requested, id ∈ s.displayMap.map (·.id)
  eventually : ∀ d ∈ s.info.displays, d.id ∈ s.requested → s.eventual d.id = some d.percentage
  keys : (s.pending.map Prod.fst).Nodup
  drained : s.worker = .idle → s.pending = []
  single : (s.calls.filterMap CallPhase.sending?).length ≤ 1
  clamped : ∀ call ∈ s.calls, Clamped call
  overall : s.info.Overall

/-- When nothing is under way, what will have been written has been. -/
theorem Inv.shown (h : s.Inv) (hquiet : s.Quiet) : s.Shown := by
  obtain ⟨hchannel, hworker, hcalls⟩ := hquiet
  have hnone : s.calls.filterMap CallPhase.sending? = [] := by
    rw [List.filterMap_eq_nil_iff]
    intro call hcall
    rw [hcalls call hcall]
    rfl
  refine ⟨fun d hd hrequested => ?_, h.overall⟩
  have heventual := h.eventually d hd hrequested
  rw [eventual, due, hchannel, hnone, h.drained hworker] at heventual
  exact heventual

theorem inv_new (initial : Option Backlight) : (new initial).Inv where
  internal := by
    intro id hid
    cases initial with
    | none => exact absurd hid List.not_mem_nil
    | some b => exact ⟨b, List.mem_singleton.mp hid⟩
  listed := by
    intro d hd
    cases initial with
    | none => exact absurd hd List.not_mem_nil
    | some b =>
      obtain rfl := List.mem_singleton.mp hd
      exact List.mem_singleton.mpr rfl
  once := by
    intro id _
    cases initial with
    | none => exact Nat.zero_le _
    | some b => exact List.count_le_length
  mapped := fun _ hid => absurd hid List.not_mem_nil
  eventually := fun _ _ hid => absurd hid List.not_mem_nil
  keys := List.nodup_nil
  drained := fun _ => rfl
  single := Nat.zero_le _
  clamped := fun _ hcall => absurd hcall List.not_mem_nil
  overall := by
    intro d hd
    cases initial with
    | none => cases hd
    | some b =>
      rw [BrightnessInfo.primary, Option.bind_eq_some_iff] at hd
      obtain ⟨_, _, hd⟩ := hd
      obtain rfl := List.mem_singleton.mp (List.mem_of_find?_eq_some hd)
      rfl

/-! ### The worker -/

variable {command : BrightnessCmd}

theorem eventual_receive {channel : List BrightnessCmd} (hchannel : s.channel = command :: channel)
    {s' : BrightnessService} (hpending : s'.pending = queueCmd s.displayMap s.pending command)
    (hchannel' : s'.channel = channel) (hmap : s'.displayMap = s.displayMap)
    (hwritten : s'.written = s.written) (hcalls : s'.calls = s.calls) (id : String) :
    s'.eventual id = s.eventual id := by
  rw [eventual, eventual, due, due, hchannel, hchannel', hpending, hmap, hwritten, hcalls,
    lookup_queueCmd, Option.or_assoc]
  rfl

/-- The worker goes on and what will have been written stays. -/
theorem Inv.work {s' : BrightnessService} (h : s.Inv) (hinfo : s'.info = s.info)
    (hmap : s'.displayMap = s.displayMap) (hcalls : s'.calls = s.calls)
    (hrequested : s'.requested = s.requested)
    (heventual : ∀ id ∈ s.displayMap.map (·.id), s'.eventual id = s.eventual id)
    (hkeys : (s'.pending.map Prod.fst).Nodup) (hdrained : s'.worker = .idle → s'.pending = []) :
    s'.Inv where
  internal := by rw [hmap]; exact h.internal
  listed := by
    intro d hd
    rw [FromStart, hmap]
    exact h.listed d (hinfo ▸ hd)
  once := by rw [hmap, hinfo]; exact h.once
  mapped := by rw [hmap, hrequested]; exact h.mapped
  eventually := by
    intro d hd hd'
    rw [hrequested] at hd'
    rw [heventual _ (h.mapped _ hd')]
    exact h.eventually d (hinfo ▸ hd) hd'
  keys := hkeys
  drained := hdrained
  single := by rw [hcalls]; exact h.single
  clamped := by rw [hcalls]; exact h.clamped
  overall := by rw [hinfo]; exact h.overall

theorem Inv.receive (h : s.Inv) : (s.next .receive).Inv := by
  simp only [next]
  split
  · next command channel hworker hchannel =>
    refine h.work rfl rfl rfl rfl (fun id _ => ?_) (nodup_queueCmd h.keys command)
      (fun hidle => by cases hidle)
    refine eventual_receive hchannel ?_ ?_ ?_ ?_ ?_ id <;> rfl
  · exact h

theorem Inv.tryReceive (h : s.Inv) : (s.next .tryReceive).Inv := by
  simp only [next]
  split
  · next command channel hworker hchannel =>
    refine h.work rfl rfl rfl rfl (fun id _ => ?_) (nodup_queueCmd h.keys command)
      (fun hidle => by rw [hworker] at hidle; cases hidle)
    refine eventual_receive hchannel ?_ ?_ ?_ ?_ ?_ id <;> rfl
  · exact h.work rfl rfl rfl rfl (fun _ _ => rfl) h.keys (fun hidle => by cases hidle)
  · exact h

theorem Inv.wake (h : s.Inv) : (s.next .wake).Inv := by
  simp only [next]
  split
  · exact h.work rfl rfl rfl rfl (fun _ _ => rfl) h.keys (fun hidle => by cases hidle)
  · exact h

theorem Inv.finish (h : s.Inv) : (s.next .finish).Inv := by
  simp only [next]
  split
  · next hfinish =>
    exact h.work rfl rfl rfl rfl (fun _ _ => rfl) h.keys (fun _ => hfinish.2)
  · exact h

/-- What is written is no longer pending, and what will have been written stays. -/
theorem eventual_write {k : ℕ} (hkeys : (s.pending.map Prod.fst).Nodup)
    (hk : s.pending[k]? = some (id, percentage)) {other : String}
    (hother : other ∈ s.displayMap.map (·.id)) {s' : BrightnessService}
    (hpending : s'.pending = s.pending.eraseIdx k)
    (hwritten : s'.written =
      if id ∈ s.displayMap.map (·.id) then (id, percentage) :: s.written else s.written)
    (hchannel : s'.channel = s.channel) (hmap : s'.displayMap = s.displayMap)
    (hcalls : s'.calls = s.calls) : s'.eventual other = s.eventual other := by
  obtain ⟨l, r, hsplit, herase, -⟩ := split_at hk
  rw [eventual, eventual, due, due, hchannel, hcalls, hmap, hpending, hwritten, herase, hsplit]
  refine congrArg (afterAll s.displayMap other · _) ?_
  rw [hsplit, List.map_append, List.map_cons, List.nodup_middle, List.nodup_cons,
    ← List.map_append] at hkeys
  have hnone : ∀ entry ∈ l ++ r, entry.1 ≠ id := fun entry hentry heq =>
    hkeys.1 (List.mem_map.mpr ⟨entry, hentry, heq⟩)
  rw [List.lookup_append, List.lookup_append, lookup_cons_eq]
  by_cases hid : other = id
  · have hl : l.lookup other = none := List.lookup_eq_none_iff.mpr fun entry hentry => by
      simpa [hid] using (hnone entry (List.mem_append_left _ hentry)).symm
    have hr : r.lookup other = none := List.lookup_eq_none_iff.mpr fun entry hentry => by
      simpa [hid] using (hnone entry (List.mem_append_right _ hentry)).symm
    rw [hl, hr, if_pos hid, if_pos (hid ▸ hother), lookup_cons_eq, if_pos hid]
    rfl
  · rw [if_neg hid]
    refine congrArg (Option.or _) ?_
    by_cases hmapped : id ∈ s.displayMap.map (·.id)
    · rw [if_pos hmapped, lookup_cons_eq, if_neg hid]
    · rw [if_neg hmapped]

theorem Inv.write (h : s.Inv) (k : ℕ) : (s.next (.write k)).Inv := by
  simp only [next]
  split
  · next id percentage hworker hk =>
    refine h.work rfl rfl rfl rfl (fun other hother => ?_) ?_ ?_
    · exact eventual_write h.keys hk hother rfl rfl rfl rfl rfl
    · exact h.keys.sublist ((List.eraseIdx_sublist ..).map _)
    · intro hidle
      rw [hworker] at hidle
      cases hidle
  · exact h

/-! ### Listing displays -/

theorem internal_ne (h : s.Inv) {id : String} (hid : id ∈ s.displayMap.map (·.id))
    (d : DdcDisplay) : d.display.id ≠ id := by
  obtain ⟨b, rfl⟩ := h.internal id hid
  exact backlight_id_ne b d

/-- Displays are listed anew, those of `stay` stay listed. -/
theorem Inv.publish (h : s.Inv) {stay : List DisplayBrightnessInfo} {new : List DdcDisplay}
    {info : BrightnessInfo} (hstay : stay.Sublist s.info.displays)
    (hdisplays : info.displays = stay ++ new.map DdcDisplay.display) (hoverall : info.Overall) :
    (s.publish info (stay.map (·.id))).Inv where
  internal := h.internal
  listed := by
    intro d hd
    have hd : d ∈ stay ++ new.map DdcDisplay.display := hdisplays ▸ hd
    rcases List.mem_append.mp hd with hd | hd
    · exact h.listed d (hstay.subset hd)
    · obtain ⟨e, -, rfl⟩ := List.mem_map.mp hd
      exact ⟨e, rfl⟩
  once := by
    intro id hid
    have hnew : ((new.map DdcDisplay.display).map (·.id)).count id = 0 := by
      rw [List.count_eq_zero, List.map_map]
      intro hmem
      obtain ⟨e, -, he⟩ := List.mem_map.mp hmem
      exact internal_ne h hid e he
    change (info.displays.map (·.id)).count id ≤ 1
    rw [hdisplays, List.map_append, List.count_append, hnew, Nat.add_zero]
    exact ((hstay.map _).count_le id).trans (h.once id hid)
  mapped := fun id hid => h.mapped id (List.mem_of_mem_filter hid)
  eventually := by
    intro d hd hrequested
    have hd : d ∈ stay ++ new.map DdcDisplay.display := hdisplays ▸ hd
    have hrequested : d.id ∈ s.requested := List.mem_of_mem_filter hrequested
    rcases List.mem_append.mp hd with hd | hd
    · exact h.eventually d (hstay.subset hd) hrequested
    · obtain ⟨e, -, rfl⟩ := List.mem_map.mp hd
      exact absurd rfl (internal_ne h (h.mapped _ hrequested) e)
  keys := h.keys
  drained := h.drained
  single := h.single
  clamped := h.clamped
  overall := hoverall

theorem Inv.discovered (h : s.Inv) {new : List DdcDisplay} {permissionsOk : Bool}
    (hf : s.Faithful (.discovered new permissionsOk)) :
    (s.next (.discovered new permissionsOk)).Inv := by
  have hdisplays : (s.info.discovered (new.map DdcDisplay.display) permissionsOk).displays =
      s.info.displays ++ new.map DdcDisplay.display := by
    cases new with
    | nil => cases permissionsOk <;> simp [BrightnessInfo.discovered]
    | cons d new =>
      cases hprimary : s.info.primaryDisplayId <;> cases permissionsOk <;>
        simp [BrightnessInfo.discovered, hprimary]
  refine h.publish (List.Sublist.refl _) hdisplays ?_
  by_cases hfirst : new = [] ∨ s.info.primaryDisplayId.isSome = true
  · refine h.overall.listed hf (fun _ _ hd => hd) hdisplays ?_ ?_
    all_goals
      rcases hfirst with rfl | hsome
      · cases permissionsOk <;> simp [BrightnessInfo.discovered]
      · obtain ⟨pid, hpid⟩ := Option.isSome_iff_exists.mp hsome
        cases new <;> cases permissionsOk <;> simp [BrightnessInfo.discovered, hpid]
  · -- the first display that is listed becomes the primary one
    obtain ⟨hnew, hnone⟩ := not_or.mp hfirst
    have hnone : s.info.primaryDisplayId = none := by simpa using hnone
    have hempty : (new.map DdcDisplay.display).isEmpty = false := by simpa using hnew
    obtain ⟨d, rest, hhead⟩ : ∃ d rest, s.info.displays ++ new.map DdcDisplay.display = d :: rest :=
      List.exists_cons_of_ne_nil fun hnil => hnew (by simpa using (List.append_eq_nil_iff.mp hnil).2)
    obtain ⟨hprimary, hpercentage⟩ :
        (s.info.discovered (new.map DdcDisplay.display) permissionsOk).primaryDisplayId = some d.id ∧
        (s.info.discovered (new.map DdcDisplay.display) permissionsOk).percentage =
          d.percentage := by
      cases permissionsOk <;> simp [BrightnessInfo.discovered, hempty, hnone, hhead]
    intro e he
    rw [BrightnessInfo.primary, hprimary, Option.bind_some, BrightnessInfo.display, hdisplays,
      hhead, List.find?_cons_of_pos (by simp)] at he
    rw [hpercentage, Option.some.inj he]

theorem Inv.rescanned (h : s.Inv) {new : List DdcDisplay} {permissionsOk : Bool}
    (hf : s.Faithful (.rescanned new permissionsOk)) :
    (s.next (.rescanned new permissionsOk)).Inv := by
  have hdisplays : (s.info.rescanned (new.map DdcDisplay.display) permissionsOk).displays =
      (s.info.displays.filter fun d => !d.backend.isDdc) ++ new.map DdcDisplay.display := by
    cases new <;> cases permissionsOk <;> simp [BrightnessInfo.rescanned]
  refine h.publish List.filter_sublist hdisplays (h.overall.listed hf ?_ hdisplays ?_ ?_)
  · -- no display behind DDC goes by the id of one that stays
    intro pid d hd
    rw [List.find?_filter] at hd
    obtain ⟨hkeep, hid⟩ : d.backend.isDdc = false ∧ d.id = pid := by
      simpa using List.find?_some hd
    have hmapped : pid ∈ s.displayMap.map (·.id) := by
      have := h.listed d (List.mem_of_find?_eq_some hd)
      rw [FromStart, hkeep, if_neg (by simp)] at this
      exact hid ▸ this
    rw [← hd]
    refine List.find?_congr fun e he => ?_
    cases hddc : e.backend.isDdc with
    | false => simp
    | true =>
      have := h.listed e he
      rw [FromStart, hddc, if_pos rfl] at this
      obtain ⟨f, hf⟩ := this
      simpa [hf] using internal_ne h hmapped f
  · cases new <;> cases permissionsOk <;> simp [BrightnessInfo.rescanned]
  · cases new <;> cases permissionsOk <;> simp [BrightnessInfo.rescanned]

/-! ### Calls -/

theorem mem_applied {info : BrightnessInfo} {d : DisplayBrightnessInfo}
    (h : d ∈ (info.applied command).displays) :
    ∃ e ∈ info.displays, e.id = d.id ∧ e.backend = d.backend := by
  cases command with
  | setAll percentage =>
    obtain ⟨e, he, rfl⟩ := List.mem_map.mp h
    exact ⟨e, he, rfl, rfl⟩
  | setDisplay id percentage =>
    change d ∈ BrightnessInfo.setFirst id percentage info.displays at h
    induction hdisplays : info.displays generalizing info with
    | nil =>
      rw [hdisplays] at h
      exact absurd h List.not_mem_nil
    | cons e displays ih =>
      rw [hdisplays, BrightnessInfo.setFirst] at h
      split at h
      · rcases List.mem_cons.mp h with rfl | hmem
        · exact ⟨e, List.mem_cons_self, rfl, rfl⟩
        · exact ⟨d, List.mem_cons_of_mem _ hmem, rfl, rfl⟩
      · rcases List.mem_cons.mp h with rfl | hmem
        · exact ⟨d, List.mem_cons_self, rfl, rfl⟩
        · obtain ⟨f, hf, hsame⟩ := @ih { info with displays := displays } hmem rfl
          exact ⟨f, List.mem_cons_of_mem _ hf, hsame⟩

/-- A call that is called, or goes on and sends nothing. -/
theorem Inv.calls {calls : List CallPhase} (h : s.Inv)
    (hsending : calls.filterMap CallPhase.sending? = s.calls.filterMap CallPhase.sending?)
    (hclamped : ∀ call ∈ calls, Clamped call) : Inv { s with calls := calls } where
  internal := h.internal
  listed := h.listed
  once := h.once
  mapped := h.mapped
  eventually := by
    intro d hd hrequested
    rw [eventual, due, hsending]
    exact h.eventually d hd hrequested
  keys := h.keys
  drained := h.drained
  single := by rw [hsending]; exact h.single
  clamped := hclamped
  overall := h.overall

theorem Inv.call (h : s.Inv) {call : CallPhase} (hsending : call.sending? = none)
    (hclamped : Clamped call) : Inv { s with calls := s.calls ++ [call] } := by
  refine h.calls ?_ ?_
  · rw [List.filterMap_append, List.filterMap_cons_none hsending, List.filterMap_nil,
      List.append_nil]
  · intro other hother
    rcases List.mem_append.mp hother with hother | hother
    · exact h.clamped other hother
    · obtain rfl := List.mem_singleton.mp hother
      exact hclamped

theorem clamped_set (h : s.Inv) {i : ℕ} {call : CallPhase} (hclamped : Clamped call) :
    ∀ other ∈ s.calls.set i call, Clamped other := by
  intro other hother
  rcases List.mem_or_eq_of_mem_set hother with hother | rfl
  · exact h.clamped other hother
  · exact hclamped

theorem filterMap_cons_sending (command : BrightnessCmd) (calls : List CallPhase) :
    (CallPhase.sending command :: calls).filterMap CallPhase.sending? =
      command :: calls.filterMap CallPhase.sending? := rfl

theorem Inv.goOn (h : s.Inv) {i : ℕ} {call call' : CallPhase} (hi : s.calls[i]? = some call)
    (hcall : call.sending? = none) (hcall' : call'.sending? = none) (hclamped : Clamped call') :
    Inv { s with calls := s.calls.set i call' } := by
  obtain ⟨l, r, hsplit, -, hset⟩ := split_at hi
  refine h.calls ?_ (clamped_set h hclamped)
  rw [hset, hsplit, List.filterMap_append, List.filterMap_append, List.filterMap_cons_none hcall,
    List.filterMap_cons_none hcall']

/-- A change is published. -/
theorem Inv.published (h : s.Inv) {i : ℕ} (hi : s.calls[i]? = some (.publishing s.info command))
    (hnone : s.calls.filterMap CallPhase.sending? = [])
    (hmapped : ∀ id ∈ s.info.changed command, id ∈ s.displayMap.map (·.id)) :
    Inv { s with
      info := s.info.applied command
      requested :=
        (s.requested ++ s.info.changed command).filter (· ∈ s.info.displays.map (·.id))
      calls := s.calls.set i (.sending command) } := by
  have hclamped := h.clamped _ (List.mem_of_getElem? hi)
  have hsending : (s.calls.set i (.sending command)).filterMap CallPhase.sending? = [command] := by
    obtain ⟨l, r, hsplit, -, hset⟩ := split_at hi
    rw [hsplit, List.filterMap_append, List.append_eq_nil_iff] at hnone
    obtain ⟨hl, hr⟩ := hnone
    rw [List.filterMap_cons_none rfl] at hr
    rw [hset, List.filterMap_append, hl, filterMap_cons_sending, hr, List.nil_append]
  have heventual : ∀ id, eventual { s with
      info := s.info.applied command
      requested :=
        (s.requested ++ s.info.changed command).filter (· ∈ s.info.displays.map (·.id))
      calls := s.calls.set i (.sending command) } id =
        (value s.displayMap id command).or (s.eventual id) := by
    intro id
    rw [eventual, eventual, due, due, hsending, hnone, List.append_nil, afterAll, afterAll,
      List.foldl_append]
    rfl
  constructor
  case internal => exact h.internal
  case listed =>
    intro d hd
    obtain ⟨e, he, hid, hbackend⟩ := mem_applied hd
    have := h.listed e he
    rw [FromStart, hid, hbackend] at this
    exact this
  case once =>
    intro id hid
    rw [BrightnessInfo.map_id_applied]
    exact h.once id hid
  case mapped =>
    intro id hid
    rcases List.mem_append.mp (List.mem_of_mem_filter hid) with hid | hid
    · exact h.mapped id hid
    · exact hmapped id hid
  case eventually =>
    intro d hd hrequested
    rw [heventual]
    cases command with
    | setAll percentage =>
      obtain ⟨e, he, rfl⟩ := List.mem_map.mp hd
      have hid := hmapped e.id (List.mem_map_of_mem (f := DisplayBrightnessInfo.id) he)
      rw [value, if_pos hid, min_eq_left hclamped]
      rfl
    | setDisplay id percentage =>
      have hd : d ∈ BrightnessInfo.setFirst id percentage s.info.displays := hd
      by_cases hid : d.id = id
      · have hlisted : id ∈ s.info.displays.map (·.id) := by
          rw [← hid, ← BrightnessInfo.map_id_setFirst]
          exact List.mem_map_of_mem (f := DisplayBrightnessInfo.id) hd
        have hone := h.once id (hmapped id (List.mem_filter.mpr ⟨hlisted, by simp⟩))
        rw [value, if_pos hid, min_eq_left hclamped, BrightnessInfo.mem_setFirst hd hid hone]
        rfl
      · rw [value, if_neg hid, Option.none_or]
        refine h.eventually d (BrightnessInfo.mem_of_mem_setFirst hd hid) ?_
        rcases List.mem_append.mp (List.mem_of_mem_filter hrequested) with hmem | hmem
        · exact hmem
        · exact absurd (of_decide_eq_true (List.mem_filter.mp hmem).2) hid
  case keys => exact h.keys
  case drained => exact h.drained
  case single => rw [hsending]; exact le_rfl
  case clamped => exact clamped_set h trivial
  case overall => exact h.overall.applied command

/-- A command is sent, or dropped when no listed display is concerned. -/
theorem Inv.sent (h : s.Inv) {i : ℕ} (hi : s.calls[i]? = some (.sending command))
    {channel : List BrightnessCmd} (hchannel : channel = s.channel ++ [command] ∨
      channel = s.channel ∧ s.info.changed command = []) :
    Inv { s with channel := channel, calls := s.calls.set i .returned } := by
  obtain ⟨l, r, hsplit, -, hset⟩ := split_at hi
  have hsingle := h.single
  rw [hsplit, List.filterMap_append, filterMap_cons_sending, List.length_append, List.length_cons] at hsingle
  have hl : l.filterMap CallPhase.sending? = [] := List.eq_nil_of_length_eq_zero (by omega)
  have hr : r.filterMap CallPhase.sending? = [] := List.eq_nil_of_length_eq_zero (by omega)
  have hbefore : s.calls.filterMap CallPhase.sending? = [command] := by
    rw [hsplit, List.filterMap_append, hl, filterMap_cons_sending, hr, List.nil_append]
  have hafter : (s.calls.set i .returned).filterMap CallPhase.sending? = [] := by
    rw [hset, List.filterMap_append, hl, List.filterMap_cons_none rfl, hr, List.append_nil]
  constructor
  case internal => exact h.internal
  case listed => exact h.listed
  case once => exact h.once
  case mapped => exact h.mapped
  case eventually =>
    intro d hd hrequested
    have heventual := h.eventually d hd hrequested
    rw [eventual, due, hbefore] at heventual
    rw [eventual, due, hafter, List.append_nil]
    rcases hchannel with rfl | ⟨rfl, hchanged⟩
    · exact heventual
    · -- the command that is dropped is not for this display
      have hvalue : value s.displayMap d.id command = none := by
        cases command with
        | setAll percentage =>
          rw [List.map_eq_nil_iff.mp hchanged] at hd
          exact absurd hd List.not_mem_nil
        | setDisplay id percentage =>
          refine if_neg fun hid => List.filter_eq_nil_iff.mp hchanged d.id ?_ (by simpa using hid)
          exact List.mem_map_of_mem (f := DisplayBrightnessInfo.id) hd
      rw [afterAll, List.foldl_append, List.foldl_cons, List.foldl_nil, hvalue,
        Option.none_or] at heventual
      exact heventual
  case keys => exact h.keys
  case drained => exact h.drained
  case single => rw [hafter]; exact Nat.zero_le _
  case clamped => exact clamped_set h trivial
  case overall => exact h.overall

theorem Inv.advance (h : s.Inv) {i : ℕ} (hf : s.Faithful (.advance i)) :
    (s.next (.advance i)).Inv := by
  simp only [next]
  split
  · next call hi =>
    simp only [Faithful, hi] at hf
    cases call with
    | adjustFocused connector delta =>
      simp only [advanceCall]
      split
      · exact h.goOn hi rfl rfl trivial
      · split
        · exact h.goOn hi rfl rfl trivial
        · exact h.goOn hi rfl rfl (min_le_right _ _)
    | adjustDisplay id delta =>
      simp only [advanceCall]
      split
      · exact h.goOn hi rfl rfl (min_le_right _ _)
      · exact h.goOn hi rfl rfl trivial
    | set command =>
      have hclamped := h.clamped _ (List.mem_of_getElem? hi)
      cases command with
      | setAll percentage =>
        simp only [advanceCall]
        split
        · exact h.goOn hi rfl rfl hclamped
        · exact h.goOn hi rfl rfl trivial
      | setDisplay id percentage => exact h.goOn hi rfl rfl hclamped
    | publishing read command =>
      obtain ⟨rfl, hnone, hmapped⟩ := hf
      exact h.published hi hnone hmapped
    | sending command =>
      simp only [advanceCall]
      split
      · exact h.sent hi (.inl rfl)
      · next hfull => exact h.sent hi (.inr ⟨rfl, hf.resolve_left hfull⟩)
    | returned => exact h.goOn hi rfl rfl trivial
  · exact h

/-! ### Whole runs -/

theorem Inv.next (h : s.Inv) {a : BrightnessStep} (hf : s.Faithful a) : (s.next a).Inv := by
  cases a with
  | setBrightness percentage => exact h.call rfl (min_le_right _ _)
  | setDisplayBrightness id percentage => exact h.call rfl (min_le_right _ _)
  | adjustDisplayBrightness id delta => exact h.call rfl trivial
  | adjustFocusedBrightness connector delta => exact h.call rfl trivial
  | advance i => exact h.advance hf
  | discovered new permissionsOk => exact h.discovered hf
  | rescanned new permissionsOk => exact h.rescanned hf
  | receive => exact h.receive
  | tryReceive => exact h.tryReceive
  | wake => exact h.wake
  | write k => exact h.write k
  | finish => exact h.finish

/-- **In a run whose steps are faithful the service shows what the hardware was told, whenever
nothing is under way.** -/
theorem shown_of_faithful (initial : Option Backlight) (steps : List BrightnessStep)
    (hfaithful : Along BrightnessService.next Faithful (new initial) steps) :
    Always BrightnessService.next (fun s => s.Quiet → s.Shown) (new initial) steps := by
  rw [always_iff]
  intro pre post hsplit
  rw [hsplit, along_append] at hfaithful
  have hinv : (run BrightnessService.next (new initial) pre).Inv :=
    hfaithful.1.holds (fun _ _ h hf => h.next hf) (inv_new initial)
  exact hinv.shown

/-! ### Runs -/

namespace Sample

/-- The internal display. -/
def internal : Backlight := ⟨"intel_backlight", 50⟩

/-- A monitor behind DDC. -/
def monitor : DdcDisplay := ⟨3, some "dell-u2723qe", some "DP-1", 70⟩

/-- The worker takes one command and writes what is pending. -/
def work : List BrightnessStep := [.receive, .tryReceive, .wake, .write 0, .finish]

/-- All displays are set while only the internal one is listed; then a monitor is found. -/
def faithful : List BrightnessStep :=
  [BrightnessStep.setBrightness 30, .advance 0, .advance 0, .advance 0] ++ work ++
    [BrightnessStep.discovered [monitor] true]

/-- All displays are set after a monitor has been found. -/
def foundLate : List BrightnessStep :=
  [BrightnessStep.discovered [monitor] true, .setBrightness 30, .advance 0, .advance 0,
    .advance 0] ++ work

/-- One more change than the channel holds, before the worker gets to run. -/
def burst : List BrightnessStep :=
  (List.range (channelCapacity + 1)).flatMap fun i =>
    [.setBrightness i, .advance i, .advance i, .advance i]

/-- What the worker then does. -/
def workAll : List BrightnessStep :=
  BrightnessStep.receive :: List.replicate channelCapacity .tryReceive ++
    [BrightnessStep.wake, .write 0, .finish]

end Sample

open Sample in
/-- A run that is faithful. -/
theorem shown_of_faithful_found :
    Always BrightnessService.next (fun s => s.Quiet → s.Shown) (new (some internal)) faithful := by
  refine shown_of_faithful (some internal) faithful ⟨trivial, trivial, ⟨rfl, rfl, ?_⟩, .inl ?_,
    trivial, trivial, trivial, trivial, trivial, ?_, trivial⟩
  · decide +kernel
  · decide +kernel
  · intro pid hpid hnone
    obtain rfl := Option.some.inj hpid
    exact absurd hnone (by decide +kernel)

/-- A listed display shows what was not written to it. -/
def Stale (s : BrightnessService) (d : DisplayBrightnessInfo) : Prop :=
  d ∈ s.info.displays ∧ d.id ∈ s.requested ∧ s.written.lookup d.id ≠ some d.percentage

instance (s : BrightnessService) (d : DisplayBrightnessInfo) : Decidable (s.Stale d) :=
  inferInstanceAs (Decidable (_ ∧ _ ∧ _))

theorem Stale.not_shown {s : BrightnessService} {d : DisplayBrightnessInfo} (h : s.Stale d) :
    ¬ s.Shown :=
  fun hshown => h.2.2 (hshown.displays d h.1 h.2.1)

open Sample in
/-- The monitor is listed with what it was never told; and the last of the changes is shown and is
not written. -/
theorem foundLate_not_shown :
    ((run BrightnessService.next (new (some internal)) foundLate).Quiet ∧
      ¬ (run BrightnessService.next (new (some internal)) foundLate).Shown) ∧
    ((run BrightnessService.next (new (some internal)) (burst ++ workAll)).Quiet ∧
      ¬ (run BrightnessService.next (new (some internal)) (burst ++ workAll)).Shown) := by
  have hfound : (run BrightnessService.next (new (some internal)) foundLate).Quiet ∧
      (run BrightnessService.next (new (some internal)) foundLate).Stale
        { monitor.display with percentage := 30 } := by decide +kernel
  have hburst : (run BrightnessService.next (new (some internal)) (burst ++ workAll)).Quiet ∧
      (run BrightnessService.next (new (some internal)) (burst ++ workAll)).Stale
        { internal.display with percentage := channelCapacity } := by decide +kernel
  exact ⟨⟨hfound.1, hfound.2.not_shown⟩, hburst.1, hburst.2.not_shown⟩

end BrightnessService

end Shilpo.Brightness

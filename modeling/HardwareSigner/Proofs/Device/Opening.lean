import HardwareSigner.Link.Hid

/-!
# Opening a link to an attached device

The device to open is the first that is wanted, and which others are attached does not matter. Once
it has been chosen, three steps are left: opening it, switching its line on and emptying its queues.
What each of them will come to is laid down (`hurdles`); steps are taken up to the first that fails,
and that one decides the outcome.

> `HidLink.openLink_eq`: opening in one equation.
> `HidLink.opens_first_wanted`: which device is opened, what is sent to it and what is said.
-/

namespace HardwareSigner

namespace Descriptor

/-- The device has the configured identifiers, and the configured serial number if there is one. A
device without a serial number has none that could be configured. -/
structure Wanted (d : Descriptor) (s : HidSettings) : Prop where
  vendor : d.vendor = s.vendor
  product : d.product = s.product
  serial : ∀ serial, s.serial? = some serial → d.serial? = some serial

/-- The first of the devices that is wanted. -/
structure First (d : Descriptor) (devices : List Descriptor) (s : HidSettings) : Prop where
  wanted : d.Wanted s
  first : ∃ before after, devices = before ++ d :: after ∧ ∀ other ∈ before, ¬other.Wanted s

section

variable {d : Descriptor} {devices others : List Descriptor} {s : HidSettings}

theorem fits_iff : d.fits s = true ↔ d.Wanted s := by
  unfold fits
  rw [Bool.and_eq_true_iff, Bool.and_eq_true_iff, beq_iff_eq, beq_iff_eq]
  constructor
  · intro ⟨⟨vendor, product⟩, serial⟩
    refine ⟨vendor, product, fun number configured => ?_⟩
    rw [configured] at serial
    exact eq_of_beq serial
  · intro ⟨vendor, product, serial⟩
    refine ⟨⟨vendor, product⟩, ?_⟩
    split
    next => rfl
    next number configured => exact beq_iff_eq.mpr (serial number configured)

instance : Decidable (d.Wanted s) := decidable_of_iff _ fits_iff

theorem decide_wanted (d : Descriptor) (s : HidSettings) : decide (d.Wanted s) = d.fits s := by
  rw [Bool.eq_iff_iff, decide_eq_true_iff, fits_iff]

theorem select?_eq_some_iff : select? devices s = some d ↔ d.First devices s := by
  unfold select?
  rw [List.find?_eq_some_iff_append, fits_iff]
  simp only [Bool.not_eq_true', ← Bool.not_eq_true, fits_iff]
  exact ⟨fun ⟨wanted, first⟩ => ⟨wanted, first⟩, fun ⟨wanted, first⟩ => ⟨wanted, first⟩⟩

theorem select?_eq_none_iff : select? devices s = none ↔ ∀ d ∈ devices, ¬d.Wanted s := by
  unfold select?
  simp only [List.find?_eq_none, fits_iff]

/-- Devices that are not wanted make no difference to the choice. -/
theorem select?_congr
    (same : others.filter (·.Wanted s) = devices.filter (·.Wanted s)) :
    select? others s = select? devices s := by
  simp only [decide_wanted] at same
  unfold select?
  rw [← List.head?_filter, ← List.head?_filter, same]

end

end Descriptor

/-- What is said of a step. -/
def verdict : Option String → Except Failure Unit
  | none => .ok ()
  | some text => .error (.hid text)

namespace Device

/-- The device once feature reports have been sent. -/
def told (d : Device) (reports : List Bytes) : Device :=
  { d with featureSends := d.featureSends.drop reports.length, features := d.features ++ reports }

theorem sendFeature_eq (d : Device) (report : Bytes) :
    d.sendFeature report = (verdict d.featureSends.head?.join, d.told [report]) := by
  unfold sendFeature told
  rw [List.length_singleton, List.drop_one]
  cases d.featureSends with
  | nil => rfl
  | cons outcome others => cases outcome <;> rfl

theorem told_nil (d : Device) : d.told [] = d := by
  unfold told
  rw [List.append_nil]
  rfl

theorem told_cons (d : Device) (report : Bytes) (reports : List Bytes) :
    (d.told [report]).told reports = d.told (report :: reports) := by
  unfold told
  simp only [List.drop_drop, List.append_assoc, List.length_cons, List.length_nil, Nat.zero_add,
    Nat.add_comm, List.cons_append, List.nil_append]

end Device

namespace HidLink

/-- The feature reports that make a device ready: one switches its line on, one empties its
queues. -/
def preparations : List Bytes := [[0x41, 0x01], [0x43, 0x03]]

/-- What the steps after the choice come to, each if it is taken: the error, or `none`. -/
def hurdles (l : HidLink) : List (Option String) :=
  [l.bus.openError?, l.device.featureSends[0]?.join, l.device.featureSends[1]?.join]

/-- How many of them succeed before the first that does not. -/
def cleared (l : HidLink) : Nat := (l.hurdles.takeWhile Option.isNone).length

/-- The link once the device has been chosen and the steps have been taken. -/
def advanced (l : HidLink) (d : Descriptor) : HidLink :=
  { l with
    bus := { l.bus with opened := l.bus.opened ++ [d.path] }
    device := l.device.told (preparations.take l.cleared)
    opened := l.opened || l.cleared == l.hurdles.length }

section

variable {l : HidLink} {d : Descriptor}

theorem enable_eq (d : Device) :
    Bridge.enable true d = (verdict d.featureSends[0]?.join, d.told (preparations.take 1)) := by
  rw [← List.head?_eq_getElem?]
  exact d.sendFeature_eq _

theorem purge_eq (d : Device) :
    Bridge.purge .both (d.told (preparations.take 1)) =
      (verdict d.featureSends[1]?.join, d.told (preparations.take 2)) := by
  have second : (d.told (preparations.take 1)).featureSends.head? = d.featureSends[1]? :=
    (List.head?_drop ..)
  rw [← second]
  exact (Device.sendFeature_eq _ _).trans (congrArg _ (d.told_cons _ _))

/-- Once a device has been chosen, the steps that are left are taken up to the first that fails. -/
theorem openLink_of_select? (listed : l.bus.listError? = none)
    (chosen : Descriptor.select? l.bus.devices l.settings = some d) :
    l.openLink = (verdict (l.hurdles.findSome? id), l.advanced d) := by
  have opens : l.bus.openConfigured l.settings =
      ((verdict l.bus.openError?).map fun _ => d,
        { l.bus with opened := l.bus.opened ++ [d.path] }) := by
    simp only [Bus.openConfigured, Bus.list, listed, chosen, Bus.openPath]
    cases l.bus.openError? <;> rfl
  unfold openLink
  rw [opens, enable_eq]
  unfold advanced cleared hurdles
  cases l.bus.openError? with
  | some text => simp [verdict, Except.map, Device.told_nil]
  | none =>
    cases first : l.device.featureSends[0]?.join with
    | some text => simp [verdict, Except.map]
    | none =>
      simp only [verdict, Except.map, purge_eq]
      cases second : l.device.featureSends[1]?.join with
      | some text => simp
      | none => simp [preparations]

end

/-- The listing and the choice decide which device is opened, and what follows does not depend on
them. -/
theorem openLink_eq (l : HidLink) :
    l.openLink =
      match l.bus.listError? with
      | some text => (.error (.hid text), l)
      | none =>
        match Descriptor.select? l.bus.devices l.settings with
        | none =>
          (.error (.deviceNotFound l.settings.vendor l.settings.product l.settings.serial?), l)
        | some d => (verdict (l.hurdles.findSome? id), l.advanced d) := by
  split
  next text failed => simp only [openLink, Bus.openConfigured, Bus.list, failed]
  next listed =>
    split
    next missing => simp only [openLink, Bus.openConfigured, Bus.list, listed, missing]
    next chosen => exact openLink_of_select? listed chosen

/-- The link when other devices are attached. -/
def among (l : HidLink) (devices : List Descriptor) : HidLink :=
  { l with bus := { l.bus with devices := devices } }

/-- What is attached besides the devices that are wanted makes no difference. -/
theorem openLink_congr (l : HidLink) {others : List Descriptor}
    (same : others.filter (·.Wanted l.settings) = l.bus.devices.filter (·.Wanted l.settings)) :
    (l.among others).openLink = (l.openLink.1, l.openLink.2.among others) := by
  have chosen : Descriptor.select? (l.among others).bus.devices (l.among others).settings =
      Descriptor.select? l.bus.devices l.settings :=
    Descriptor.select?_congr same
  have listed : (l.among others).bus.listError? = l.bus.listError? := rfl
  rw [openLink_eq, openLink_eq l, chosen, listed]
  cases l.bus.listError? with
  | some text => rfl
  | none => cases Descriptor.select? l.bus.devices l.settings <;> rfl

theorem verdict_eq_ok {outcomes : List (Option String)} :
    verdict (outcomes.findSome? id) = .ok () ↔ ∀ outcome ∈ outcomes, outcome = none := by
  have fine : outcomes.findSome? id = none ↔ ∀ outcome ∈ outcomes, outcome = none :=
    List.findSome?_eq_none_iff
  rw [← fine]
  cases outcomes.findSome? id with
  | none => exact iff_of_true rfl rfl
  | some text => exact iff_of_false (fun same => by cases same) (fun same => by cases same)

theorem verdict_of_first {before after : List (Option String)} {text : String}
    (fine : ∀ outcome ∈ before, outcome = none) :
    verdict ((before ++ some text :: after).findSome? id) = .error (.hid text) := by
  rw [List.findSome?_append, (List.findSome?_eq_none_iff (p := id)).mpr fine]
  rfl

/-- Nothing is opened if the devices cannot be listed or none is wanted. Otherwise the first that is
wanted is opened and nothing else; the feature reports are sent as far as all steps before them have
succeeded, and the first step that fails is what is told. Devices that are not wanted can come and
go anywhere in the list: neither the choice nor anything that follows changes. -/
theorem opens_first_wanted (l : HidLink) :
    (∀ text, l.bus.listError? = some text → l.openLink = (.error (.hid text), l)) ∧
    (l.bus.listError? = none → (∀ d ∈ l.bus.devices, ¬d.Wanted l.settings) →
      l.openLink =
        (.error (.deviceNotFound l.settings.vendor l.settings.product l.settings.serial?), l)) ∧
    (l.bus.listError? = none → (∃ d ∈ l.bus.devices, d.Wanted l.settings) →
      ∃ d, d.First l.bus.devices l.settings ∧ l.openLink.2 = l.advanced d ∧
        l.openLink.2.bus.opened = l.bus.opened ++ [d.path] ∧
        l.openLink.2.device.features = l.device.features ++ preparations.take l.cleared ∧
        (l.openLink.1 = .ok () ↔ ∀ outcome ∈ l.hurdles, outcome = none) ∧
        (∀ before text after, l.hurdles = before ++ some text :: after →
          (∀ outcome ∈ before, outcome = none) → l.openLink.1 = .error (.hid text))) ∧
    (∀ others : List Descriptor,
      others.filter (·.Wanted l.settings) = l.bus.devices.filter (·.Wanted l.settings) →
      (∀ d : Descriptor, d.First others l.settings ↔ d.First l.bus.devices l.settings) ∧
      (l.among others).openLink = (l.openLink.1, l.openLink.2.among others)) := by
  refine ⟨fun text failed => ?_, fun listed missing => ?_, fun listed present => ?_,
    fun others same => ⟨fun d => ?_, l.openLink_congr same⟩⟩
  · rw [openLink_eq, failed]
  · rw [openLink_eq, listed, Descriptor.select?_eq_none_iff.mpr missing]
  · obtain ⟨d, chosen⟩ : ∃ d, Descriptor.select? l.bus.devices l.settings = some d := by
      rw [← Option.ne_none_iff_exists', Ne, Descriptor.select?_eq_none_iff]
      exact fun missing => present.elim fun d among => missing d among.1 among.2
    rw [openLink_of_select? listed chosen]
    refine ⟨d, Descriptor.select?_eq_some_iff.mp chosen, rfl, rfl, rfl, verdict_eq_ok, ?_⟩
    intro before text after split fine
    rw [split]
    exact verdict_of_first fine
  · rw [← Descriptor.select?_eq_some_iff, ← Descriptor.select?_eq_some_iff,
      Descriptor.select?_congr same]

/-- Two signers with the configured serial number, behind another device and one without a serial
number. Emptying the queues fails. -/
def stalling : HidLink where
  bus := {
    devices := [⟨"mouse", 1, 2, none, none, none⟩, ⟨"spare", 0x10c4, 0xea80, none, none, none⟩,
      ⟨"signer", 0x10c4, 0xea80, some "7", none, none⟩,
      ⟨"late", 0x10c4, 0xea80, some "7", none, none⟩] }
  settings := { serial? := some "7" }
  device := { featureSends := [none, some "stalled"] }

theorem opens_first_wanted_stalling :
    (∃ d : Descriptor, d.First stalling.bus.devices stalling.settings ∧
      stalling.openLink.2.bus.opened = [d.path] ∧
      stalling.openLink.2.device.features = preparations ∧
      stalling.openLink.1 = .error (.hid "stalled")) ∧
    HidLink.openLink { stalling with bus := { stalling.bus with listError? := some "busy" } } =
      (.error (.hid "busy"),
        { stalling with bus := { stalling.bus with listError? := some "busy" } }) ∧
    HidLink.openLink { stalling with settings := { serial? := some "8" } } =
      (.error (.deviceNotFound 0x10c4 0xea80 (some "8")),
        { stalling with settings := { serial? := some "8" } }) ∧
    (stalling.among (stalling.bus.devices.drop 2 ++ stalling.bus.devices.take 2)).openLink.1 =
      stalling.openLink.1 := by
  obtain ⟨-, -, found, unmoved⟩ := opens_first_wanted stalling
  refine ⟨?_, ?_, ?_, ?_⟩
  · obtain ⟨d, first, -, opened, sent, -, failed⟩ := found rfl (by decide)
    exact ⟨d, first, opened, sent, failed [none, none] "stalled" [] rfl (by decide)⟩
  · exact (opens_first_wanted _).1 "busy" rfl
  · exact (opens_first_wanted _).2.1 rfl (by decide)
  · rw [(unmoved (stalling.bus.devices.drop 2 ++ stalling.bus.devices.take 2) (by decide)).2]

end HidLink

end HardwareSigner

import HardwareSigner.Body.Field
import HardwareSigner.Proofs.Body.Spelling

/-!
# What a body may hold

`Fields` is the grammar of a body: fields one after another, each a key with a value or a group of
fields. It lists the values of the field that counts, in order, and says nothing of how they are
found. The scanner keeps the numbers of the open groups instead, and the two are brought together
step by step: `Takes` is one step with exactly the bytes it takes, and `Ends` is what has to follow
where groups are open.

> `read?_eq_some_iff`: a body that is read is one of the grammar, and its value is the last one it
> lists, or empty.
-/

namespace HardwareSigner.Body

/-! ## Keys and values -/

def Layout.code : Layout → Nat
  | .varint => 0
  | .fixed64 => 1
  | .delimited => 2
  | .groupStart => 3
  | .groupEnd => 4
  | .fixed32 => 5

/-- How a key can be spelled. -/
structure Key.Spelled (key : Key) (bytes : Bytes) : Prop where
  accepted : Varint.Accepted (8 * key.number + key.layout.code) bytes
  positive : 0 < key.number
  fits : 8 * key.number + key.layout.code < UInt32.size

/-- The value with its length in front. -/
def Delimits (value bytes : Bytes) : Prop :=
  ∃ length, Varint.Accepted value.length length ∧ bytes = length ++ value

/-- A value that is no group. -/
inductive Plain : Layout → Bytes → Prop
  | varint {n : Nat} {bytes : Bytes} (accepted : Varint.Accepted n bytes) : Plain .varint bytes
  | fixed64 {bytes : Bytes} (long : bytes.length = 8) : Plain .fixed64 bytes
  | fixed32 {bytes : Bytes} (long : bytes.length = 4) : Plain .fixed32 bytes
  | delimited {value bytes : Bytes} (delimits : Delimits value bytes) : Plain .delimited bytes

section

variable {bytes rest taken value : Bytes} {key : Key} {layout : Layout} {count n : Nat}

theorem Layout.code_lt (layout : Layout) : layout.code < 8 := by
  cases layout <;> decide

theorem Layout.ofNat?_eq_some_iff : Layout.ofNat? n = some layout ↔ n = layout.code := by
  constructor
  · intro found
    unfold Layout.ofNat? at found
    split at found <;> cases found <;> rfl
  · rintro rfl
    cases layout <;> rfl

theorem Key.Spelled.read (spelled : key.Spelled bytes) (rest : Bytes) :
    readKey? (bytes ++ rest) = some (key, rest) := by
  obtain ⟨number, layout⟩ := key
  obtain ⟨accepted, positive, fits⟩ := spelled
  have below := layout.code_lt
  have high : (8 * number + layout.code) / 8 = number := by omega
  have low : (8 * number + layout.code) % 8 = layout.code := by omega
  simp only [readKey?, accepted.read, high, low, Layout.ofNat?_eq_some_iff.mpr rfl,
    Option.map_some]
  exact if_pos ⟨fits, positive⟩

theorem readKey?_eq_some_iff :
    readKey? bytes = some (key, rest) ↔
      ∃ spelling, bytes = spelling ++ rest ∧ key.Spelled spelling := by
  constructor
  · intro read
    unfold readKey? at read
    split at read
    next => cases read
    next n behind found =>
      split at read
      next bounds =>
        obtain ⟨layout, named, same⟩ := Option.map_eq_some_iff.mp read
        cases same
        obtain ⟨spelling, rfl, accepted⟩ := Varint.read?_eq_some_iff.mp found
        have parts : 8 * (n / 8) + layout.code = n := by
          rw [← Layout.ofNat?_eq_some_iff.mp named]
          exact Nat.div_add_mod n 8
        exact ⟨spelling, rfl, parts.symm ▸ accepted, bounds.2, parts.symm ▸ bounds.1⟩
      next => cases read
  · rintro ⟨spelling, rfl, spelled⟩
    exact spelled.read rest

theorem take?_eq_some_iff :
    take? count bytes = some (taken, rest) ↔ bytes = taken ++ rest ∧ taken.length = count := by
  unfold take?
  constructor
  · intro took
    split at took
    next => cases took
    next enough =>
      cases took
      exact ⟨(List.take_append_drop count bytes).symm,
        List.length_take_of_le (Nat.not_lt.mp enough)⟩
  · rintro ⟨rfl, rfl⟩
    rw [if_neg (by simp), List.take_left, List.drop_left]

theorem Delimits.read (delimits : Delimits value bytes) (rest : Bytes) :
    readDelimited? (bytes ++ rest) = some (value, rest) := by
  obtain ⟨length, accepted, rfl⟩ := delimits
  simp only [readDelimited?, List.append_assoc, accepted.read]
  exact take?_eq_some_iff.mpr ⟨rfl, rfl⟩

theorem readDelimited?_eq_some_iff :
    readDelimited? bytes = some (value, rest) ↔
      ∃ spelling, bytes = spelling ++ rest ∧ Delimits value spelling := by
  constructor
  · intro read
    unfold readDelimited? at read
    split at read
    next => cases read
    next found =>
      obtain ⟨length, rfl, accepted⟩ := Varint.read?_eq_some_iff.mp found
      obtain ⟨rfl, rfl⟩ := take?_eq_some_iff.mp read
      exact ⟨length ++ value, (List.append_assoc ..).symm, length, accepted, rfl⟩
  · rintro ⟨spelling, rfl, delimits⟩
    exact delimits.read rest

theorem Plain.skip (plain : Plain layout bytes) (rest : Bytes) :
    skipValue? layout (bytes ++ rest) = some rest := by
  cases plain with
  | varint accepted => exact congrArg (Option.map Prod.snd) (accepted.read rest)
  | fixed64 long => exact congrArg (Option.map Prod.snd) (take?_eq_some_iff.mpr ⟨rfl, long⟩)
  | fixed32 long => exact congrArg (Option.map Prod.snd) (take?_eq_some_iff.mpr ⟨rfl, long⟩)
  | delimited delimits => exact congrArg (Option.map Prod.snd) (delimits.read rest)

theorem skipValue?_eq_some_iff :
    skipValue? layout bytes = some rest ↔
      ∃ spelling, bytes = spelling ++ rest ∧ Plain layout spelling := by
  constructor
  · intro skipped
    cases layout with
    | varint =>
      obtain ⟨⟨n, _⟩, found, rfl⟩ := Option.map_eq_some_iff.mp skipped
      obtain ⟨spelling, rfl, accepted⟩ := Varint.read?_eq_some_iff.mp found
      exact ⟨spelling, rfl, .varint accepted⟩
    | fixed64 =>
      obtain ⟨⟨taken, _⟩, found, rfl⟩ := Option.map_eq_some_iff.mp skipped
      obtain ⟨rfl, long⟩ := take?_eq_some_iff.mp found
      exact ⟨taken, rfl, .fixed64 long⟩
    | fixed32 =>
      obtain ⟨⟨taken, _⟩, found, rfl⟩ := Option.map_eq_some_iff.mp skipped
      obtain ⟨rfl, long⟩ := take?_eq_some_iff.mp found
      exact ⟨taken, rfl, .fixed32 long⟩
    | delimited =>
      obtain ⟨⟨value, _⟩, found, rfl⟩ := Option.map_eq_some_iff.mp skipped
      obtain ⟨spelling, rfl, delimits⟩ := readDelimited?_eq_some_iff.mp found
      exact ⟨spelling, rfl, .delimited delimits⟩
    | groupStart => cases skipped
    | groupEnd => cases skipped
  · rintro ⟨spelling, rfl, plain⟩
    exact plain.skip rest

end

/-! ## The grammar -/

/-- Fields one after another where `depth` groups are open, with the values they give the field
that counts. That is field 1 outside of all groups; everything else is skipped. -/
inductive Fields (admits : Bytes → Bool) : Nat → Bytes → List Bytes → Prop
  | nil {depth : Nat} : Fields admits depth [] []
  | set {k v value bytes : Bytes} {values : List Bytes} (key : Key.Spelled ⟨1, .delimited⟩ k)
      (delimits : Delimits value v) (admitted : admits value = true)
      (others : Fields admits 0 bytes values) : Fields admits 0 (k ++ v ++ bytes) (value :: values)
  | skip {depth : Nat} {key : Key} {k v bytes : Bytes} {values : List Bytes}
      (other : depth = 0 → key.number ≠ 1) (shallow : depth < maxDepth) (spelled : key.Spelled k)
      (plain : Plain key.layout v) (others : Fields admits depth bytes values) :
      Fields admits depth (k ++ v ++ bytes) values
  | group {depth number : Nat} {k inside e bytes : Bytes} {values : List Bytes}
      (other : depth = 0 → number ≠ 1) (shallow : depth < maxDepth)
      (opens : Key.Spelled ⟨number, .groupStart⟩ k) (inner : Fields admits (depth + 1) inside [])
      (closes : Key.Spelled ⟨number, .groupEnd⟩ e) (others : Fields admits depth bytes values) :
      Fields admits depth (k ++ inside ++ e ++ bytes) values

/-- What follows where groups are open: the end of each, and the fields behind it. -/
inductive Ends (admits : Bytes → Bool) : List Nat → Bytes → List Bytes → Prop
  | nil : Ends admits [] [] []
  | cons {number : Nat} {groups : List Nat} {e bytes tail : Bytes} {values later : List Bytes}
      (closes : Key.Spelled ⟨number, .groupEnd⟩ e)
      (fields : Fields admits groups.length bytes values)
      (outer : Ends admits groups tail later) :
      Ends admits (number :: groups) (e ++ (bytes ++ tail)) (values ++ later)

namespace Scan

/-- One step of the scanner, and the bytes it takes. -/
inductive Takes (admits : Bytes → Bool) : Scan → Bytes → Scan → Prop
  | set {k v value old : Bytes} (key : Key.Spelled ⟨1, .delimited⟩ k) (delimits : Delimits value v)
      (admitted : admits value = true) : Takes admits ⟨[], old⟩ (k ++ v) ⟨[], value⟩
  | skip {s : Scan} {key : Key} {k v : Bytes} (other : s.groups.length = 0 → key.number ≠ 1)
      (shallow : s.groups.length < maxDepth) (spelled : key.Spelled k)
      (plain : Plain key.layout v) : Takes admits s (k ++ v) s
  | opens {s : Scan} {number : Nat} {k : Bytes} (other : s.groups.length = 0 → number ≠ 1)
      (shallow : s.groups.length < maxDepth) (spelled : Key.Spelled ⟨number, .groupStart⟩ k) :
      Takes admits s k { s with groups := number :: s.groups }
  | closes {groups : List Nat} {value : Bytes} {number : Nat} {k : Bytes}
      (spelled : Key.Spelled ⟨number, .groupEnd⟩ k) :
      Takes admits ⟨number :: groups, value⟩ k ⟨groups, value⟩

section

variable {admits : Bytes → Bool} {s after : Scan} {bytes rest taken tail value : Bytes}
  {values later : List Bytes}

theorem counts_eq_false {groups : List Nat} {number : Nat}
    (other : groups.length = 0 → number ≠ 1) : (groups.isEmpty && number == 1) = false := by
  cases groups with
  | nil => exact beq_false_of_ne (other rfl)
  | cons top outer => rfl

theorem Takes.step? (takes : Takes admits s taken after) (rest : Bytes) :
    s.step? admits (taken ++ rest) = some (after, rest) := by
  cases takes with
  | set key delimits admitted => simp [Scan.step?, key.read, delimits.read, admitted]
  | @skip _ key _ _ other shallow spelled plain =>
    obtain ⟨number, layout⟩ := key
    have skipped := plain.skip rest
    simp only [Scan.step?, List.append_assoc, spelled.read, counts_eq_false other,
      if_neg (Nat.not_le.mpr shallow)]
    cases plain <;> exact congrArg (Option.map _) skipped
  | opens other shallow spelled =>
    simp only [Scan.step?, spelled.read, counts_eq_false other, if_neg (Nat.not_le.mpr shallow)]
    rfl
  | closes spelled => simp [Scan.step?, spelled.read]

theorem takes_of_step? (stepped : s.step? admits bytes = some (after, rest)) :
    ∃ taken, bytes = taken ++ rest ∧ Takes admits s taken after := by
  obtain ⟨groups, old⟩ := s
  unfold Scan.step? at stepped
  split at stepped
  next => cases stepped
  next key behind found =>
    obtain ⟨k, rfl, spelled⟩ := readKey?_eq_some_iff.mp found
    obtain ⟨number, layout⟩ := key
    simp only at stepped
    split at stepped
    next counts =>
      obtain ⟨none, one⟩ := Bool.and_eq_true_iff.mp counts
      cases List.isEmpty_iff.mp none
      cases eq_of_beq one
      split at stepped
      next same =>
        cases same
        split at stepped
        next => cases stepped
        next value _ read =>
          split at stepped
          next admitted =>
            cases stepped
            obtain ⟨v, rfl, delimits⟩ := readDelimited?_eq_some_iff.mp read
            exact ⟨k ++ v, (List.append_assoc ..).symm, .set spelled delimits admitted⟩
          next => cases stepped
      next => cases stepped
    next elsewhere =>
      have other : groups.length = 0 → number ≠ 1 := by
        rintro none rfl
        exact elsewhere (by simp [List.eq_nil_of_length_eq_zero none])
      split at stepped
      next same =>
        cases same
        split at stepped
        next => cases stepped
        next top outer =>
          split at stepped
          next same =>
            cases same
            cases stepped
            exact ⟨k, rfl, .closes spelled⟩
          next => cases stepped
      next =>
        split at stepped
        next => cases stepped
        next shallow =>
          have shallow := Nat.not_le.mp shallow
          split at stepped
          next same =>
            cases same
            cases stepped
            exact ⟨k, rfl, .opens other shallow spelled⟩
          next =>
            obtain ⟨_, skipped, same⟩ := Option.map_eq_some_iff.mp stepped
            cases same
            obtain ⟨v, rfl, plain⟩ := skipValue?_eq_some_iff.mp skipped
            exact ⟨k ++ v, (List.append_assoc ..).symm, .skip other shallow spelled plain⟩

/-- A step does as one of the ways says. -/
theorem step?_eq_some_iff :
    s.step? admits bytes = some (after, rest) ↔
      ∃ taken, bytes = taken ++ rest ∧ Takes admits s taken after := by
  constructor
  · exact takes_of_step?
  · rintro ⟨taken, rfl, takes⟩
    exact takes.step? rest

/-! ## The whole run -/

theorem run?_nil : s.run? admits [] = if s.groups.isEmpty then some s.value else none := by
  rw [run?]
  rfl

theorem run?_of_step? (stepped : s.step? admits bytes = some (after, rest)) :
    s.run? admits bytes = after.run? admits rest := by
  have some : bytes.isEmpty = false := by
    have shorter := length_lt_of_step stepped
    cases bytes with
    | nil => cases shorter
    | cons => rfl
  rw [run?, some]
  simp only [Bool.false_eq_true, if_false]
  split
  next none => cases stepped.symm.trans none
  next found =>
    cases stepped.symm.trans found
    rfl

theorem Takes.run? (takes : Takes admits s taken after) (rest : Bytes) :
    s.run? admits (taken ++ rest) = after.run? admits rest :=
  run?_of_step? (takes.step? rest)

/-- The scanner goes through the fields and is left with the last value they give. -/
theorem run?_of_fields {depth : Nat} (fields : Fields admits depth bytes values)
    {groups : List Nat} (deep : groups.length = depth) (value rest : Bytes) :
    run? admits ⟨groups, value⟩ (bytes ++ rest) =
      run? admits ⟨groups, values.getLastD value⟩ rest := by
  induction fields generalizing groups value rest with
  | nil => rfl
  | set key delimits admitted others ih =>
    cases List.eq_nil_of_length_eq_zero deep
    rw [List.append_assoc, (Takes.set key delimits admitted).run?, ih rfl, List.getLastD_cons]
  | skip other shallow spelled plain others ih =>
    subst deep
    rw [List.append_assoc, Takes.run? (.skip other shallow spelled plain), ih rfl]
  | group other shallow opens inner closes others ihInner ihOthers =>
    subst deep
    simp only [List.append_assoc]
    rw [Takes.run? (.opens other shallow opens), ihInner rfl, Takes.run? (.closes closes),
      ihOthers rfl]
    rfl

theorem values_eq_nil {depth : Nat} (fields : Fields admits depth bytes values)
    (within : 0 < depth) : values = [] := by
  induction fields with
  | nil => rfl
  | set => cases within
  | skip _ _ _ _ _ ih => exact ih within
  | group _ _ _ _ _ _ _ ih => exact ih within

/-- A step in front of fields makes fields. -/
theorem Takes.fields (takes : Takes admits s taken after)
    (fields : Fields admits after.groups.length bytes values)
    (ends : Ends admits after.groups tail later) :
    ∃ front back given behind, taken ++ (bytes ++ tail) = front ++ back ∧
      Fields admits s.groups.length front given ∧ Ends admits s.groups back behind ∧
      (given ++ behind).getLastD s.value = (values ++ later).getLastD after.value := by
  cases takes with
  | @set k v value _ key delimits admitted =>
    exact ⟨k ++ v ++ bytes, tail, value :: values, later, (List.append_assoc ..).symm,
      .set key delimits admitted fields, ends, List.getLastD_cons ..⟩
  | @skip _ _ k v other shallow spelled plain =>
    exact ⟨k ++ v ++ bytes, tail, values, later, (List.append_assoc ..).symm,
      .skip other shallow spelled plain fields, ends, rfl⟩
  | opens other shallow spelled =>
    cases ends with
    | @cons _ _ e behind tail given later closes outside outer =>
      cases values_eq_nil fields (Nat.succ_pos _)
      exact ⟨taken ++ bytes ++ e ++ behind, tail, given, later, by simp only [List.append_assoc],
        .group other shallow spelled fields closes outside, outer, rfl⟩
  | closes spelled =>
    exact ⟨[], _, [], _, rfl, .nil, .cons spelled fields ends, rfl⟩

theorem fields_of_run? (read : s.run? admits bytes = some value) :
    ∃ front back given behind, bytes = front ++ back ∧
      Fields admits s.groups.length front given ∧ Ends admits s.groups back behind ∧
      value = (given ++ behind).getLastD s.value := by
  induction h : bytes.length using Nat.strongRecOn generalizing s bytes with
  | ind n ih =>
    subst h
    rw [run?] at read
    split at read
    next none =>
      cases List.isEmpty_iff.mp none
      split at read
      next shut =>
        cases read
        obtain ⟨groups, value⟩ := s
        cases List.isEmpty_iff.mp shut
        exact ⟨[], [], [], [], rfl, .nil, .nil, rfl⟩
      next => cases read
    next =>
      split at read
      next => cases read
      next after rest stepped =>
        have shorter := length_lt_of_step stepped
        obtain ⟨taken, rfl, takes⟩ := step?_eq_some_iff.mp stepped
        obtain ⟨bytes, tail, values, later, rfl, fields, ends, rfl⟩ := ih _ shorter read rfl
        obtain ⟨front, back, given, behind, same, fields, ends, last⟩ := takes.fields fields ends
        exact ⟨front, back, given, behind, same, fields, ends, last.symm⟩

end

end Scan

/-- What is read of a body is what the grammar says. -/
theorem read?_eq_some_iff {admits : Bytes → Bool} {bytes value : Bytes} :
    read? admits bytes = some value ↔
      ∃ values, Fields admits 0 bytes values ∧ value = values.getLastD [] := by
  constructor
  · intro read
    obtain ⟨front, back, given, behind, rfl, fields, ends, rfl⟩ := Scan.fields_of_run? read
    cases ends
    rw [List.append_nil, List.append_nil]
    exact ⟨given, fields, rfl⟩
  · rintro ⟨values, fields, rfl⟩
    have run : Scan.run? admits ⟨[], []⟩ (bytes ++ []) =
        Scan.run? admits ⟨[], values.getLastD []⟩ [] :=
      Scan.run?_of_fields fields rfl [] []
    rwa [List.append_nil, Scan.run?_nil] at run

end HardwareSigner.Body

import HardwareSigner.Link.Stream
import Mathlib.Data.List.Basic
import Mathlib.Data.List.DropRight

/-!
# The address names what is dialled

An address is printed for people, and brackets around its host are not dialled. It is read back by
two rules. The port stands behind the last colon (`LastColon`), since digits hold no colon, and the
host is what stands before it, less the brackets that open and end it (`Stripped`). Neither rule
leaves a choice, so a text names one host and one port at most.

Which hosts get brackets when they are printed does not matter: a pair of brackets around a text is
taken away with the others.

> `StreamSettings.names_address`: the address names the host that is dialled, and its port.
> `StreamLink.dials_what_is_printed`: opening a link dials what the address names, once, so links
> with one address dial the same.
-/

namespace HardwareSigner

/-! ## Texts without their brackets -/

/-- What is left of a text when all brackets that open it and all that end it are taken away. -/
structure Stripped (text host : List Char) : Prop where
  inside : ∃ opening ending : Nat,
    text = List.replicate opening '[' ++ host ++ List.replicate ending ']'
  starts : host.head? ≠ some '['
  ends : host.getLast? ≠ some ']'

namespace Stripped

variable {text host other : List Char}

/-- Brackets that end a text are none that open it, also where nothing stands before them. -/
theorem dropWhile_closed (starts : host.head? ≠ some '[') (count : Nat) :
    (host ++ List.replicate count ']').dropWhile (· = '[') = host ++ List.replicate count ']' := by
  match host, count with
  | c :: rest, _ =>
    rw [List.cons_append, List.dropWhile_cons_of_neg]
    exact fun bracket => starts (congrArg some (of_decide_eq_true bracket))
  | [], 0 => rfl
  | [], count + 1 =>
    rw [List.nil_append, List.replicate_succ, List.dropWhile_cons_of_neg (by decide)]

theorem rdropWhile_closed (ends : host.getLast? ≠ some ']') (count : Nat) :
    (host ++ List.replicate count ']').rdropWhile (· = ']') = host := by
  induction count with
  | zero =>
    rw [List.replicate_zero, List.append_nil, List.rdropWhile_eq_self_iff]
    intro filled bracket
    rw [List.getLast?_eq_some_getLast filled, of_decide_eq_true bracket] at ends
    exact ends rfl
  | succ count ih =>
    rw [List.replicate_succ', ← List.append_assoc, List.rdropWhile_concat_pos _ _ _ (by decide)]
    exact ih

/-- Taking away the opening brackets first leaves all that end the text. -/
theorem eq (stripped : Stripped text host) :
    (text.dropWhile (· = '[')).rdropWhile (· = ']') = host := by
  obtain ⟨⟨opening, ending, rfl⟩, starts, ends⟩ := stripped
  rw [List.append_assoc, List.dropWhile_append_of_pos, dropWhile_closed starts,
    rdropWhile_closed ends]
  intro c among
  exact decide_eq_true (List.eq_of_mem_replicate among)

theorem unique (stripped : Stripped text host) (too : Stripped text other) : host = other :=
  stripped.eq.symm.trans too.eq

/-- Every text can be stripped. -/
theorem of_text (text : List Char) :
    Stripped text ((text.dropWhile (· = '[')).rdropWhile (· = ']')) where
  inside := by
    obtain ⟨opening, opens⟩ : ∃ count, text.takeWhile (· = '[') = List.replicate count '[' :=
      ⟨_, List.eq_replicate_of_mem fun c among =>
        of_decide_eq_true (List.mem_takeWhile_imp (p := (· = '[')) among)⟩
    obtain ⟨ending, closes⟩ :
        ∃ count, (text.dropWhile (· = '[')).rtakeWhile (· = ']') = List.replicate count ']' :=
      ⟨_, List.eq_replicate_of_mem fun c among =>
        of_decide_eq_true (List.mem_rtakeWhile_imp (p := (· = ']')) among)⟩
    refine ⟨opening, ending, ?_⟩
    rw [← opens, ← closes, List.append_assoc, List.rdropWhile_append_rtakeWhile,
      List.takeWhile_append_dropWhile]
  starts := by
    intro first
    obtain ⟨ending, split⟩ := List.rdropWhile_prefix (· = ']') (l := text.dropWhile (· = '['))
    have kept := text.head?_dropWhile_not (· = '[')
    rw [← split, List.head?_append, first, Option.some_or] at kept
    exact absurd kept (by decide)
  ends := by
    intro last
    have filled : (text.dropWhile (· = '[')).rdropWhile (· = ']') ≠ [] := by
      intro empty
      rw [empty] at last
      cases last
    rw [List.getLast?_eq_some_getLast filled] at last
    exact List.rdropWhile_last_not _ _ filled (decide_eq_true (Option.some.inj last))

/-- A pair of brackets around a text is taken away with the others. -/
theorem bracketed (stripped : Stripped text host) : Stripped ('[' :: text ++ [']']) host := by
  obtain ⟨⟨opening, ending, rfl⟩, starts, ends⟩ := stripped
  refine ⟨⟨opening + 1, ending + 1, ?_⟩, starts, ends⟩
  rw [List.replicate_succ, List.replicate_succ']
  simp only [List.cons_append, List.append_assoc]

end Stripped

/-! ## Addresses -/

/-- A text is divided at its last colon. -/
structure LastColon (text before after : List Char) : Prop where
  divided : text = before ++ ':' :: after
  last : ':' ∉ after

namespace LastColon

variable {text before after before' after' between : List Char}

/-- No other colon comes behind the last one. -/
theorem none_between (last : ':' ∉ after) (same : ':' :: after = between ++ ':' :: after') :
    between = [] := by
  match between with
  | [] => rfl
  | c :: between =>
    rw [List.cons_append] at same
    rw [(List.cons.inj same).2] at last
    exact absurd (List.mem_append_right between List.mem_cons_self) last

theorem unique (colon : LastColon text before after) (another : LastColon text before' after') :
    before = before' ∧ after = after' := by
  have same := colon.divided.symm.trans another.divided
  rcases List.append_eq_append_iff.mp same with ⟨between, rfl, rest⟩ | ⟨between, rfl, rest⟩
  · cases none_between colon.last rest
    exact ⟨(List.append_nil before).symm, (List.cons.inj rest).2⟩
  · cases none_between another.last rest
    exact ⟨List.append_nil before', (List.cons.inj rest).2.symm⟩

end LastColon

/-- The text has the digits of the port behind its last colon, and the host before it, in any number
of brackets. -/
def Names (text host : String) (port : UInt16) : Prop :=
  ∃ before, LastColon text.toList before (Nat.toDigits 10 port.toNat) ∧ Stripped before host.toList

theorem Names.unique {text host host' : String} {port port' : UInt16} (names : Names text host port)
    (too : Names text host' port') : host = host' ∧ port = port' := by
  obtain ⟨before, colon, stripped⟩ := names
  obtain ⟨before', colon', stripped'⟩ := too
  obtain ⟨rfl, digits⟩ := colon.unique colon'
  have number : port.toNat = port'.toNat := by
    rw [← Nat.ofDigitChars_ten_toDigits (n := port.toNat), digits, Nat.ofDigitChars_ten_toDigits]
  exact ⟨String.toList_inj.mp (stripped.unique stripped'), UInt16.toNat_inj.mp number⟩

namespace StreamSettings

theorem toList_dialled (s : StreamSettings) :
    s.dialled.toList = (s.host.toList.dropWhile (· = '[')).rdropWhile (· = ']') :=
  String.toList_ofList

/-- The host is printed as it is configured or in a pair of brackets. -/
theorem toList_address (s : StreamSettings) :
    ∃ before, (before = s.host.toList ∨ before = '[' :: s.host.toList ++ [']']) ∧
      s.address.toList = before ++ ':' :: Nat.toDigits 10 s.port.toNat := by
  have digits : (toString s.port).toList = Nat.toDigits 10 s.port.toNat := Nat.toList_repr
  unfold address
  split
  case isTrue =>
    refine ⟨_, .inr rfl, ?_⟩
    show ("[" ++ s.host ++ "]:" ++ toString s.port).toList = _
    rw [String.toList_append, String.toList_append, String.toList_append, digits]
    simp
  case isFalse =>
    refine ⟨_, .inl rfl, ?_⟩
    show (s.host ++ ":" ++ toString s.port).toList = _
    rw [String.toList_append, String.toList_append, digits]
    simp

theorem names_address (s : StreamSettings) : Names s.address s.dialled s.port := by
  obtain ⟨before, printed, address⟩ := s.toList_address
  have noColon : ':' ∉ Nat.toDigits 10 s.port.toNat := fun among =>
    absurd (Nat.isDigit_of_mem_toDigits (by decide) (by decide) among) (by decide)
  refine ⟨before, ⟨address, noColon⟩, ?_⟩
  rw [toList_dialled]
  rcases printed with rfl | rfl
  · exact .of_text _
  · exact (Stripped.of_text _).bracketed

end StreamSettings

/-! ## Opening a link -/

namespace StreamLink

variable {s : StreamSettings} {n : Network}

theorem dialled_openLink (s : StreamSettings) (n : Network) :
    (openLink s n).2.dialled = n.dialled ++ [(s.dialled, s.port)] := by
  unfold openLink Network.dial
  match n.answer s.dialled s.port s.connectTimeout with
  | none => rfl
  | some (.error cause) => rfl
  | some (.ok link) =>
    dsimp only
    cases n.hasten link <;> rfl

/-- The failure to reach a host names the address. -/
theorem target_of_unreached {target : String} {cause : IoCause}
    (failed : (openLink s n).1 = .error (.connect target cause)) : target = s.address := by
  unfold openLink Network.dial at failed
  match n.answer s.dialled s.port s.connectTimeout, failed with
  | none, failed => cases failed; rfl
  | some (.error _), failed => cases failed; rfl
  | some (.ok link), failed =>
    dsimp only at failed
    cases hastened : n.hasten link
    all_goals
      rw [hastened] at failed
      cases failed

/-- Opening a link dials once. The address has the digits of the port behind its last colon, and
before it, in brackets or not, the host that is dialled; it can be read as no other host or port. A
failure to reach the host names that address. Links with one address dial the same host and port. -/
theorem dials_what_is_printed (s : StreamSettings) (n : Network) :
    (∃ host, Names s.address host s.port ∧
      (openLink s n).2.dialled = n.dialled ++ [(host, s.port)]) ∧
    (∀ host port, Names s.address host port →
      (openLink s n).2.dialled = n.dialled ++ [(host, port)]) ∧
    (∀ target cause, (openLink s n).1 = .error (.connect target cause) → target = s.address) ∧
    ∀ t : StreamSettings, t.address = s.address →
      (openLink t n).2.dialled = (openLink s n).2.dialled := by
  have dialled : ∀ host port, Names s.address host port →
      (openLink s n).2.dialled = n.dialled ++ [(host, port)] := by
    intro host port names
    obtain ⟨rfl, rfl⟩ := names.unique s.names_address
    exact dialled_openLink s n
  refine ⟨⟨s.dialled, s.names_address, dialled_openLink s n⟩, dialled,
    fun _ _ => target_of_unreached, fun t same => ?_⟩
  rw [dialled_openLink t n]
  exact (dialled _ _ (same ▸ t.names_address)).symm

/-- The host is printed as `[a:b]]`, and what is dialled is `a:b`. So it is where the host is
configured as it is printed. -/
theorem dials_what_is_printed_lopsided :
    StreamSettings.address { host := "a:b]", port := 80 } = "[a:b]]:80" ∧
    (openLink { host := "a:b]", port := 80 } .unreachable).1 =
      .error (.connect "[a:b]]:80" (.system .networkUnreachable)) ∧
    (openLink { host := "a:b]", port := 80 } .unreachable).2.dialled = [("a:b", 80)] ∧
    (openLink { host := "[a:b]]", port := 80 } .unreachable).2.dialled = [("a:b", 80)] := by
  let s : StreamSettings := { host := "a:b]", port := 80 }
  obtain ⟨-, named, told, same⟩ := dials_what_is_printed s .unreachable
  have failed : (openLink s .unreachable).1 =
      .error (.connect "[a:b]]:80" (.system .networkUnreachable)) :=
    (openLink_unreachable s).trans (congrArg Except.error (by decide +kernel))
  have printed : s.address = "[a:b]]:80" := (told _ _ failed).symm
  have names : Names s.address "a:b" 80 := by
    rw [printed]
    exact ⟨"[a:b]]".toList, ⟨by decide, by decide⟩, ⟨1, 2, by decide⟩, by decide, by decide⟩
  have dialled : (openLink s .unreachable).2.dialled = [("a:b", 80)] := named "a:b" 80 names
  refine ⟨printed, failed, dialled, ?_⟩
  rw [← dialled]
  exact same { host := "[a:b]]", port := 80 } (by decide +kernel)

end StreamLink

end HardwareSigner

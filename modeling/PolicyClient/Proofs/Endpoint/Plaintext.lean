/-
# PolicyClient.Proofs.Endpoint.Plaintext -- who may be spoken to in clear text

The guard on plaintext endpoints looks at the text (`checkPlaintextBy`) and the connection
goes where the library says that reads URIs.  Here the two are compared.

What a host is, is said without either of them: `Uri.Reading` is a division of an
authority into a user part, a host and what follows it.  Two things are relied on of a
library: that it reads the scheme without regard to case (`ReadsSchemes`), and that the host
it finds is that of a reading (`ReadsHosts`).  The one that runs does both; brackets are where
this needs its parser, which takes none that is left open (`closes_of_scan`).

Main statement: `plaintext_guarded`.  The guard reads the scheme as it is spelled and the
library does not, so an endpoint is let through if its host is on this machine, and also if
its scheme has a capital letter (`shouted_scheme_unguarded`).
-/
import PolicyClient.Endpoint.Setup
import Mathlib.Data.List.Basic

namespace PolicyClient

set_option autoImplicit false

namespace Uri

/-! ## What a host is -/

/-- A division of an authority.  A host in brackets ends at its bracket, whatever comes after
that: a library that reads URIs stops there, and does not ask for a colon.  Any other host
ends at a colon or with the authority. -/
structure Reading (authority user host rest : List Char) : Prop where
  whole : authority = user ++ (host ++ rest)
  userPart : user = [] ∨ user.getLast? = some '@'
  noneLater : '@' ∉ host ++ rest
  ends : (∃ inner, host = '[' :: (inner ++ [']']) ∧ ']' ∉ inner) ∨
    (host.head? ≠ some '[' ∧ ':' ∉ host ∧ (rest = [] ∨ rest.head? = some ':'))

/-- An authority less its user part. -/
def hostAndPort (authority : List Char) : List Char :=
  (authority.reverse.takeWhile (· != '@')).reverse

/-- Where the host of a host and a port ends. -/
def hostOf (l : List Char) : List Char :=
  match l with
  | '[' :: _ => l.takeWhile (· != ']') ++ [']']
  | _ => l.takeWhile (· != ':')

theorem host_eq (u : Uri) : u.host = hostOf (hostAndPort u.authority) := rfl

theorem hostOf_bracket (l : List Char) :
    hostOf ('[' :: l) = '[' :: (l.takeWhile (· != ']') ++ [']']) := by
  simp [hostOf]

theorem hostOf_plain (l : List Char) (plain : l.head? ≠ some '[') :
    hostOf l = l.takeWhile (· != ':') := by
  cases l with
  | nil => rfl
  | cons c l =>
    have other : c ≠ '[' := by simpa using plain
    unfold hostOf
    split
    · next same => exact absurd (List.cons.inj same).1 other
    · rfl

theorem takeWhile_ne_append {c : Char} {l rest : List Char} (clear : c ∉ l)
    (ends : rest = [] ∨ rest.head? = some c) : (l ++ rest).takeWhile (· != c) = l := by
  have kept : ∀ a ∈ l, (a != c) = true := by
    intro a member
    simpa using ne_of_mem_of_not_mem member clear
  rw [List.takeWhile_append_of_pos kept]
  cases rest with
  | nil => simp
  | cons d rest =>
    have same : d = c := by simpa using ends
    simp [same]

theorem hostAndPort_append {user tail : List Char} (user_ends : user = [] ∨ user.getLast? = some '@')
    (clear : '@' ∉ tail) : hostAndPort (user ++ tail) = tail := by
  have reading : (tail.reverse ++ user.reverse).takeWhile (· != '@') = tail.reverse := by
    apply takeWhile_ne_append (by simpa using clear)
    simpa [List.head?_reverse] using user_ends
  rw [hostAndPort, List.reverse_append, reading, List.reverse_reverse]

/-- A list is divided at the first place of a character, if it has one. -/
theorem exists_first (c : Char) (l : List Char) :
    ∃ before after, l = before ++ after ∧ c ∉ before ∧ (after = [] ∨ after.head? = some c) := by
  by_cases member : c ∈ l
  · obtain ⟨before, after, rfl, clear⟩ := List.eq_append_cons_of_mem member
    exact ⟨before, c :: after, rfl, clear, .inr rfl⟩
  · exact ⟨l, [], by simp, member, .inl rfl⟩

/-- The user part ends at the last at sign, which is the first from the end. -/
theorem exists_user (authority : List Char) :
    ∃ user tail, authority = user ++ tail ∧ (user = [] ∨ user.getLast? = some '@') ∧ '@' ∉ tail := by
  obtain ⟨before, after, same, clear, ends⟩ := exists_first '@' authority.reverse
  refine ⟨after.reverse, before.reverse, ?_, ?_, ?_⟩
  · rw [← List.reverse_append, ← same, List.reverse_reverse]
  · simpa [List.getLast?_reverse] using ends
  · simpa using clear

theorem Reading.host_eq {u : Uri} {user host rest : List Char}
    (reading : Reading u.authority user host rest) : u.host = host := by
  rw [Uri.host_eq, reading.whole, hostAndPort_append reading.userPart reading.noneLater]
  obtain ⟨inner, rfl, clear⟩ | ⟨plain, clear, ends⟩ := reading.ends
  · have stops : (inner ++ ']' :: rest).takeWhile (· != ']') = inner :=
      takeWhile_ne_append clear (.inr rfl)
    simp [hostOf_bracket, stops]
  · have start : (host ++ rest).head? ≠ some '[' := by
      cases host with
      | cons c host => simpa using plain
      | nil => obtain rfl | colon := ends <;> simp_all
    rw [hostOf_plain _ start, takeWhile_ne_append clear ends]

/-! ## Brackets that parse -/

/-- What every character of a stretch keeps, the stretch keeps. -/
theorem scan_keeps {P : AuthorityScan → Prop} {l : List Char} {s s' : AuthorityScan}
    (step : ∀ c ∈ l, ∀ s s', P s → s.next? c = some s' → P s') (start : P s)
    (scan : l.foldlM AuthorityScan.next? s = some s') : P s' := by
  induction l generalizing s with
  | nil =>
    have same : s = s' := by simpa using scan
    exact same ▸ start
  | cons c l ih =>
    rw [List.foldlM_cons] at scan
    obtain ⟨t, next, later⟩ := Option.bind_eq_some_iff.mp scan
    have kept : P t := step c (by simp) s t start next
    exact ih (fun d member => step d (List.mem_cons_of_mem c member)) kept later

/-- A bracket is closed only after it has been opened. -/
def AuthorityScan.Paired (s : AuthorityScan) : Prop := s.closed = true → s.opened = true

/-- Inside a bracket that has not been closed. -/
def AuthorityScan.Inside (s : AuthorityScan) : Prop := s.opened = true ∧ s.closed = false

theorem AuthorityScan.Paired.next {s s' : AuthorityScan} {c : Char} (paired : s.Paired)
    (next : s.next? c = some s') : s'.Paired := by
  unfold Paired at paired ⊢
  grind [AuthorityScan.next?]

theorem AuthorityScan.Paired.opens {s s' : AuthorityScan} (paired : s.Paired)
    (next : s.next? '[' = some s') : s'.Inside := by
  unfold Paired Inside at *
  grind [AuthorityScan.next?]

theorem AuthorityScan.Inside.next {s s' : AuthorityScan} {c : Char} (inside : s.Inside)
    (other : c ≠ ']') (next : s.next? c = some s') : s'.Inside := by
  unfold Inside at *
  grind [AuthorityScan.next?]

/-- A bracket that opens anywhere in an authority that parses is closed after it. -/
theorem closes_of_scan {user tail : List Char} {s : AuthorityScan}
    (scan : (user ++ '[' :: tail).foldlM AuthorityScan.next? {} = some s) (may : s.mayEnd = true) :
    ']' ∈ tail := by
  rw [List.foldlM_append] at scan
  obtain ⟨before, userScan, tailScan⟩ := Option.bind_eq_some_iff.mp scan
  rw [List.foldlM_cons] at tailScan
  obtain ⟨after, opening, tailScan⟩ := Option.bind_eq_some_iff.mp tailScan
  have paired : before.Paired :=
    scan_keeps (fun _ _ _ _ paired next => paired.next next) (by simp [AuthorityScan.Paired]) userScan
  by_contra clear
  have inside : s.Inside := by
    refine scan_keeps ?_ (paired.opens opening) tailScan
    intro c member t t' inside next
    exact inside.next (ne_of_mem_of_not_mem member clear) next
  simp [AuthorityScan.mayEnd, inside.1, inside.2] at may

/-! ## What a parse says -/

theorem splitAuthority?_scan {s authority rest : List Char}
    (split : splitAuthority? s = some (authority, rest)) :
    ∃ scan, authority.foldlM AuthorityScan.next? {} = some scan ∧ scan.mayEnd = true := by
  obtain ⟨scan, scanned, may⟩ := Option.bind_eq_some_iff.mp split
  split at may
  · next ends =>
    cases may
    exact ⟨scan, scanned, ends⟩
  · cases may

theorem authorityAlone?_scheme {s : List Char} {u : Uri} (read : authorityAlone? s = some u) :
    u.scheme = none := by
  obtain ⟨⟨authority, rest⟩, -, read⟩ := Option.bind_eq_some_iff.mp read
  dsimp only at read
  split at read
  · cases read; rfl
  · cases read

/-- An endpoint with a scheme parses as the scheme, the authority and the rest. -/
theorem splits_of_parse? {endpoint : String} {u : Uri} {scheme : List Char}
    (parsed : parse? endpoint = some u) (named : u.scheme = some scheme) :
    ∃ after rest, splitScheme? endpoint.toList = some (some scheme, after) ∧
      splitAuthority? after = some (u.authority, rest) := by
  unfold parse? at parsed
  dsimp only at parsed
  split at parsed
  · cases parsed
  split at parsed
  · cases parsed
  · cases parsed; cases named
  · split at parsed
    · cases parsed; cases named
    · rw [authorityAlone?_scheme parsed] at named; cases named
  · obtain ⟨path, -, rfl⟩ := Option.map_eq_some_iff.mp parsed
    cases named
  · obtain ⟨⟨found, after⟩, first, parsed⟩ := Option.bind_eq_some_iff.mp parsed
    cases found with
    | none => rw [authorityAlone?_scheme parsed] at named; cases named
    | some name =>
      obtain ⟨⟨authority, rest⟩, second, parsed⟩ := Option.bind_eq_some_iff.mp parsed
      dsimp only at parsed
      split at parsed
      · cases parsed
      obtain ⟨path, -, made⟩ := Option.bind_eq_some_iff.mp parsed
      cases made
      cases named
      exact ⟨after, rest, first, second⟩

theorem exists_reading {endpoint : String} {u : Uri} {scheme : List Char}
    (parsed : parse? endpoint = some u) (named : u.scheme = some scheme) :
    ∃ user host rest, Reading u.authority user host rest := by
  obtain ⟨after, remainder, -, split⟩ := splits_of_parse? parsed named
  obtain ⟨scan, scanned, may⟩ := splitAuthority?_scan split
  obtain ⟨user, tail, whole, userPart, clear⟩ := exists_user u.authority
  by_cases bracket : tail.head? = some '['
  · obtain ⟨inside, rfl⟩ := List.head?_eq_some_iff.mp bracket
    rw [whole] at scanned
    obtain ⟨inner, rest, rfl, unclosed⟩ := List.eq_append_cons_of_mem (closes_of_scan scanned may)
    refine ⟨user, '[' :: (inner ++ [']']), rest, by simpa using whole, userPart, ?_, ?_⟩
    · simpa using clear
    · exact .inl ⟨inner, rfl, unclosed⟩
  · obtain ⟨host, rest, rfl, plain, ends⟩ := exists_first ':' tail
    refine ⟨user, host, rest, whole, userPart, clear, .inr ⟨?_, plain, ends⟩⟩
    cases host with
    | nil => simp
    | cons c host => simpa using bracket

/-! ## How a scheme is spelled -/

/-- How a plaintext scheme is spelled, with what follows it. -/
def plainStart : List Char := "http://".toList

theorem afterPrefix?_spelled {start s rest : List Char} (after : afterPrefix? start s = some rest) :
    (s.take start.length).map Char.toLower = start := by
  unfold afterPrefix? at after
  split at after
  · next spelled => exact spelled
  · cases after

/-- A plaintext scheme is read without regard to case. -/
theorem splitScheme?_spelled {s rest : List Char}
    (split : splitScheme? s = some (some "http".toList, rest)) :
    (s.take plainStart.length).map Char.toLower = plainStart := by
  unfold splitScheme? at split
  split at split
  · next after => exact afterPrefix?_spelled after
  · next missed =>
    split at split
    · cases split
    · dsimp only at split
      split at split
      · next after =>
        split at split
        · cases split
        · split at split
          · cases split
          · -- a scheme that is taken as it stands would have been found above
            have name : s.takeWhile isSchemeChar = "http".toList := by
              simpa using congrArg (Option.map Prod.fst) split
            have whole := List.take_append_drop (s.takeWhile isSchemeChar).length s
            have start := List.prefix_iff_eq_take.mp (List.takeWhile_prefix isSchemeChar (l := s))
            rw [after, ← start, name] at whole
            simp [afterPrefix?, ← whole] at missed
      · cases split

/-- The one spelling without a capital is the one in small letters. -/
theorem plainStart_prefix_iff {s : List Char}
    (spelled : (s.take plainStart.length).map Char.toLower = plainStart) :
    plainStart <+: s ↔ ∀ c ∈ s.take plainStart.length, c.isUpper = false := by
  constructor
  · intro start
    rw [← List.prefix_iff_eq_take.mp start]
    have all : (plainStart.all fun c => !c.isUpper) = true := by decide
    simpa using all
  · intro small
    have unchanged : ∀ c ∈ s.take plainStart.length, c.toLower = c := by
      intro c member
      have clear : c.isUpper = false := small c member
      delta Char.isUpper at clear
      delta Char.toLower
      grind
    have same : plainStart = s.take plainStart.length :=
      calc plainStart = (s.take plainStart.length).map Char.toLower := spelled.symm
        _ = (s.take plainStart.length).map id := List.map_congr_left unchanged
        _ = s.take plainStart.length := List.map_id _
    exact List.prefix_iff_eq_take.mpr same

end Uri

/-! ## What is relied on of a library -/

namespace UriLibrary

variable {υ : Type} (lib : UriLibrary υ)

/-- **A scheme is read without regard to case**: what has the plaintext scheme starts with it, in
whatever letters. -/
def ReadsSchemes : Prop := ∀ endpoint u, lib.parse? endpoint = some u → lib.scheme u = some "http".toList →
  (endpoint.toList.take Uri.plainStart.length).map Char.toLower = Uri.plainStart

/-- **The host of an endpoint** is what every reading of its authority says it is. -/
def ReadsHosts : Prop := ∀ endpoint u scheme, lib.parse? endpoint = some u → lib.scheme u = some scheme →
  ∀ host, lib.host u = host ↔ ∃ user rest, Uri.Reading (lib.authority u) user host rest

end UriLibrary

namespace Uri

theorem library_readsSchemes : library.ReadsSchemes := by
  intro endpoint u parsed plain
  obtain ⟨after, remainder, first, -⟩ := splits_of_parse? parsed plain
  exact splitScheme?_spelled first

theorem library_readsHosts : library.ReadsHosts := by
  intro endpoint u scheme parsed named host
  constructor
  · rintro rfl
    obtain ⟨user, host, rest, reading⟩ := exists_reading parsed named
    have same : host = library.host u := reading.host_eq.symm
    exact ⟨user, rest, same ▸ reading⟩
  · rintro ⟨user, rest, reading⟩
    exact reading.host_eq

end Uri

namespace Endpoint

variable {υ : Type} {lib : UriLibrary υ}

/-- With its scheme in small letters, an endpoint is judged by its host. -/
theorem checkPlaintextBy_of_small {endpoint : String} {u : υ} (parsed : lib.parse? endpoint = some u)
    (small : Uri.plainStart <+: endpoint.toList) :
    checkPlaintextBy lib endpoint false =
      if String.ofList (lib.host u) ∈ loopbackHosts then .ok ()
      else .error (.invalidArgument (.plaintextRemote endpoint)) := by
  have on : "http://".toList.isPrefixOf endpoint.toList = true := List.isPrefixOf_iff_prefix.mpr small
  unfold checkPlaintextBy
  rw [on, parsed]
  simp

theorem checkPlaintextBy_of_otherwise {endpoint : String}
    (other : ¬ Uri.plainStart <+: endpoint.toList) : checkPlaintextBy lib endpoint false = .ok () := by
  have off : "http://".toList.isPrefixOf endpoint.toList = false :=
    Bool.eq_false_iff.mpr (mt List.isPrefixOf_iff_prefix.mp other)
  unfold checkPlaintextBy
  rw [off]
  rfl

/-- **The guard on plaintext endpoints**, with any library that reads schemes without regard to case, and
hosts as they are to be read.  An endpoint that reads as a plaintext one passes without insistence if its
host is a name of this machine, and whatever its host if its scheme is spelled with a capital letter.
Every other one is refused by its own text. -/
theorem plaintext_guarded (schemes : lib.ReadsSchemes) (hosts : lib.ReadsHosts) (endpoint : String) (u : υ)
    (parsed : lib.parse? endpoint = some u) (plain : lib.scheme u = some "http".toList) :
    (checkPlaintextBy lib endpoint false = .ok () ↔
      (∃ c ∈ endpoint.toList.take Uri.plainStart.length, c.isUpper = true) ∨
        ∃ host ∈ loopbackHosts, ∃ user rest, Uri.Reading (lib.authority u) user host.toList rest) ∧
    (checkPlaintextBy lib endpoint false ≠ .ok () →
      checkPlaintextBy lib endpoint false = .error (.invalidArgument (.plaintextRemote endpoint))) := by
  have spelled := schemes endpoint u parsed plain
  have here : String.ofList (lib.host u) ∈ loopbackHosts ↔
      ∃ host ∈ loopbackHosts, ∃ user rest, Uri.Reading (lib.authority u) user host.toList rest := by
    simp only [← hosts endpoint u _ parsed plain]
    constructor
    · intro member
      exact ⟨_, member, by simp⟩
    · rintro ⟨host, member, same⟩
      rw [same]
      simpa using member
  by_cases small : Uri.plainStart <+: endpoint.toList
  · have clear := (Uri.plainStart_prefix_iff spelled).mp small
    rw [checkPlaintextBy_of_small parsed small, ← here]
    by_cases loopback : String.ofList (lib.host u) ∈ loopbackHosts
    · simp [loopback]
    · rw [if_neg loopback]
      grind
  · rw [checkPlaintextBy_of_otherwise small]
    have capital := mt (Uri.plainStart_prefix_iff spelled).mpr small
    push Not at capital
    simpa using Or.inl capital

/-- A user part is no host: with the library that runs the first endpoint is on this machine and the second
is not. -/
theorem users_are_no_hosts :
    Uri.library.ReadsSchemes ∧ Uri.library.ReadsHosts ∧
      checkPlaintext "http://cerbos@localhost:3592" false = .ok () ∧
      checkPlaintext "http://localhost@cerbos:3592" false =
        .error (.invalidArgument (.plaintextRemote "http://localhost@cerbos:3592")) := by
  refine ⟨Uri.library_readsSchemes, Uri.library_readsHosts, ?_, ?_⟩
  · refine (plaintext_guarded Uri.library_readsSchemes Uri.library_readsHosts _
      { scheme := some "http".toList, authority := "cerbos@localhost:3592".toList }
      (by decide) rfl).1.mpr (.inr ⟨"localhost", by decide, "cerbos@".toList, ":3592".toList, ?_⟩)
    exact { whole := by decide, userPart := by decide, noneLater := by decide, ends := .inr (by decide) }
  · exact (plaintext_guarded Uri.library_readsSchemes Uri.library_readsHosts _
      { scheme := some "http".toList, authority := "localhost@cerbos:3592".toList }
      (by decide) rfl).2 (by decide)

/-- In capitals the scheme passes the guard with a host that is not on this machine. -/
theorem shouted_scheme_unguarded :
    ¬ ∀ (endpoint : String) (u : Uri), Uri.parse? endpoint = some u → u.scheme = some "http".toList →
      checkPlaintext endpoint false = .ok () → String.ofList u.host ∈ loopbackHosts := by
  intro guarded
  have here : String.ofList "cerbos.internal".toList ∈ loopbackHosts :=
    guarded "HTTP://cerbos.internal"
      { scheme := some "http".toList, authority := "cerbos.internal".toList } (by decide) rfl (by decide)
  revert here
  decide

end Endpoint

end PolicyClient

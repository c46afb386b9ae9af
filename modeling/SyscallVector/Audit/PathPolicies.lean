import SyscallVector.Audit.LoggedWrite
import SyscallVector.Audit.ProcessName
import SyscallVector.Lib.Paths

/-!
# Paths that a policy means and paths that it finds

`loggedWrite` takes a file for C source if `".c"` stands anywhere in its path, and
`blockedOpen` takes a file for one of the account files if its name stands anywhere in the
path that the process passes. What a path denotes is another matter: source files end in
`".c"`, and the same file can be spelled in many ways.
-/
namespace SyscallVector.Audit

set_option autoImplicit false

open Lib Model

def slash : UInt8 := 47

def dot : UInt8 := 46

/-! ## Source files -/

/-- The last component of the path ends in `".c"`. -/
def NamesSource (path : List UInt8) : Prop := dotC <:+ lastComponent slash (cstr path)

/-- The call gets as far as `d_path`, which returns the path. -/
structure FindsPath (s : State) (current : Pid) (env : HandlerEnv) (ptr : Address) (fd : Int32)
    (path : List UInt8) : Prop where
  table : usedTable s current ptr ≠ 0
  name : env.name ≠ 0
  cmdline : env.cmdline ≠ none
  fd : ¬fd < 3
  kbuf : env.kbuf ≠ 0
  file : env.file = some (some path)

/-- The log line goes to the buffer of the caller, and from there to an extra write. -/
def WritesLine (env : HandlerEnv) (fd : Int32) (buf : Address) (o : HandlerOutcome) : Prop :=
  ∃ table rest, o.events =
    .copyToUser buf (logLine env.uid) :: .original (lineCall env table fd buf) :: rest

/-- The line is written for source files only, and a write to any other file reaches the
original once, with nothing stored to user memory before. -/
structure AnnotatesSource (env : HandlerEnv) (fd : Int32) (buf : Address) (count : UInt64)
    (path : List UInt8) (o : HandlerOutcome) : Prop where
  line : WritesLine env fd buf o ↔ NamesSource path
  plain : ¬NamesSource path → ∃ table, o.events = [.original (dataCall table fd buf count)]

section
variable {s : State} {current : Pid} {env : HandlerEnv} {ptr table : Address} {fd : Int32}
  {buf : Address} {count : UInt64} {path : List UInt8}

theorem namesSource_iff (path : List UInt8) : NamesSource path ↔ dotC <:+ cstr path :=
  suffix_lastComponent_iff (by decide)

theorem logAndWrite_ready (hready : LineReady env) (table : Address) (fd : Int32) (buf : Address)
    (count : UInt64) : WritesLine env fd buf (logAndWrite env table fd buf count) := by
  have houtcome := logAndWrite_outcome env table fd buf count
  generalize logAndWrite env table fd buf count = o at houtcome
  cases houtcome with
  | uncopied hcopy => exact absurd (hcopy.symm.trans hready.1) Bool.false_ne_true
  | noPage _ hstr => exact absurd hstr hready.2.1
  | unwritten _ _ hcopy => exact absurd (hcopy.symm.trans hready.2.2) Bool.false_ne_true
  | lineOnly | written => exact ⟨table, _, rfl⟩

theorem logAndWrite_unready (hready : ¬LineReady env) (table : Address) (fd : Int32)
    (buf : Address) (count : UInt64) : (logAndWrite env table fd buf count).events = [] := by
  have houtcome := logAndWrite_outcome env table fd buf count
  generalize logAndWrite env table fd buf count = o at houtcome
  cases houtcome with
  | uncopied | noPage | unwritten => rfl
  | lineOnly h | written h => exact absurd h hready

theorem not_writesLine {o : HandlerOutcome} (h : o.events = []) : ¬WritesLine env fd buf o := by
  rintro ⟨table, rest, hevents⟩
  rw [h] at hevents
  cases hevents

/-- For every path that `d_path` can return, the line is written for source files only, and
for all of them, if and only if `".c"` is not in the path, or ends it and nothing fails before
the line is written. -/
theorem source_annotated_iff (h : FindsPath s current env ptr fd path) (buf : Address)
    (count : UInt64) :
    AnnotatesSource env fd buf count path (loggedWrite s current env ptr fd buf count) ↔
      ¬dotC <:+: cstr path ∨ dotC <:+ cstr path ∧ LineReady env := by
  have houtcome := loggedWrite_outcome s current env ptr fd buf count
  generalize loggedWrite s current env ptr fd buf count = o at houtcome
  cases houtcome with
  | noTable hnull => exact absurd hnull h.table
  | unnamed _ hname => exact absurd hname h.name
  | unopened _ _ hopen => exact absurd hopen h.cmdline
  | noFile _ _ _ _ hfile => cases h.file.symm.trans hfile
  | noBuffer _ _ _ _ _ hkbuf => exact absurd hkbuf h.kbuf
  | noPath _ _ _ _ _ hfile => cases h.file.symm.trans hfile
  | logged _ _ _ _ _ hfile hin =>
    cases h.file.symm.trans hfile
    rw [or_iff_right (not_not_intro ((strstr_isSome_iff rfl).mp hin)), ← namesSource_iff]
    by_cases hready : LineReady env
    · have hline := logAndWrite_ready hready (usedTable s current ptr) fd buf count
      rw [and_iff_left hready]
      refine ⟨fun hannotates => hannotates.line.mp hline, fun hsource => ?_⟩
      exact ⟨iff_of_true hline hsource, fun hnot => absurd hsource hnot⟩
    · have hevents := logAndWrite_unready hready (usedTable s current ptr) fd buf count
      refine iff_of_false (fun hannotates => ?_) fun hright => hready hright.2
      by_cases hsource : NamesSource path
      · exact not_writesLine hevents (hannotates.line.mpr hsource)
      · obtain ⟨table, hone⟩ := hannotates.plain hsource
        rw [hevents] at hone
        cases hone
  | plain _ _ _ hunlogged =>
    obtain ⟨-, path', hfile, hnone⟩ := hunlogged.resolve_left h.fd
    cases h.file.symm.trans hfile
    have hnot : ¬dotC <:+: cstr path := (strstr_eq_none_iff path dotC).mp hnone
    have hsource : ¬NamesSource path := fun hsource =>
      hnot ((namesSource_iff path).mp hsource).isInfix
    refine iff_of_true ⟨iff_of_false ?_ hsource, fun _ => ⟨_, rfl⟩⟩ (.inl hnot)
    rintro ⟨table, rest, hevents⟩
    cases hevents

end

theorem findsPath_fileEnv (path : List UInt8) :
    FindsPath sampleBoot task1 (fileEnv path) 65536 3 path := by
  have hname : openEnv.name ≠ 0 := by decide
  have hkbuf : openEnv.kbuf ≠ 0 := by decide
  exact ⟨by decide, hname, Option.some_ne_none _, by decide, hkbuf, rfl⟩

/-- A write to `/a.c`. -/
theorem source_annotated_c :
    AnnotatesSource (fileEnv (ascii ['/', 'a', '.', 'c'])) 3 4096 5 (ascii ['/', 'a', '.', 'c'])
      (loggedWrite sampleBoot task1 (fileEnv (ascii ['/', 'a', '.', 'c'])) 65536 3 4096 5) := by
  refine (source_annotated_iff (findsPath_fileEnv _) 4096 5).mpr (.inr ⟨?_, ?_⟩)
  · exact ⟨ascii ['/', 'a'], rfl⟩
  · exact ⟨rfl, by decide, rfl⟩

/-- The line is written to `/a.cpp`. -/
theorem source_not_annotated :
    ¬∀ s current env ptr fd buf count path, (cstr path).head? = some slash →
      FindsPath s current env ptr fd path → LineReady env →
      AnnotatesSource env fd buf count path (loggedWrite s current env ptr fd buf count) := by
  intro hall
  let path := ascii ['/', 'a', '.', 'c', 'p', 'p']
  have hready : LineReady (fileEnv path) := ⟨rfl, by decide, rfl⟩
  have hannotates := hall sampleBoot task1 (fileEnv path) 65536 3 4096 5 path rfl
    (findsPath_fileEnv path) hready
  have hwrites : WritesLine (fileEnv path) 3 4096
      (loggedWrite sampleBoot task1 (fileEnv path) 65536 3 4096 5) :=
    logAndWrite_ready hready 65536 3 4096 5
  have hsuffix : dotC <:+ cstr path :=
    (namesSource_iff path).mp (hannotates.line.mp hwrites)
  exact absurd hsuffix (by decide)

/-! ## Account files -/

def etc : List UInt8 := ascii ['e', 't', 'c']

def passwd : List UInt8 := ascii ['p', 'a', 's', 's', 'w', 'd']

def shadow : List UInt8 := ascii ['s', 'h', 'a', 'd', 'o', 'w']

/-- The path, read from the root, denotes one of the two files. -/
def NamesAccounts (path : List UInt8) : Prop :=
  lexical slash dot (cstr path) = [etc, passwd] ∨ lexical slash dot (cstr path) = [etc, shadow]

instance (path : List UInt8) : Decidable (NamesAccounts path) :=
  inferInstanceAs (Decidable (_ ∨ _))

/-- A component `etc` is directly followed by one that begins with `passwd` or `shadow`. -/
def SpellsAccounts (path : List UInt8) : Prop :=
  ∃ c, (passwd <+: c ∨ shadow <+: c) ∧ [etc, c] <:+: (components slash (cstr path)).tail

/-- The path denotes an account file, but nowhere spells it out. -/
def Evades (path : List UInt8) : Prop := NamesAccounts path ∧ ¬SpellsAccounts path

/-- The path spells out an account file on its way to another one. -/
def Overblocked (path : List UInt8) : Prop := SpellsAccounts path ∧ ¬NamesAccounts path

/-- An open of an account file returns -1 and does not reach the original. Any other open is
made by the original, and returns what the original does. -/
structure GuardsAccounts (env : HandlerEnv) (pathname : UserPath) (flags : Int32)
    (mode : UInt32) (path : List UInt8) (o : HandlerOutcome) : Prop where
  blocked : NamesAccounts path → o.events = [] ∧ o.ret = .ok (-1)
  forwarded : ¬NamesAccounts path → ∃ table,
    o.events = [.original ⟨table, .open, .open pathname.address flags mode⟩] ∧
      o.ret = .ok (env.original [] ⟨table, .open, .open pathname.address flags mode⟩).toInt32

section
variable {s : State} {current : Pid} {env : HandlerEnv} {ptr : Address} {pathname : UserPath}
  {path : List UInt8}

/-- What the two searches of `blockedOpen` find. -/
theorem spellsAccounts_iff (path : List UInt8) :
    SpellsAccounts path ↔ etcPasswd <:+: cstr path ∨ etcShadow <:+: cstr path := by
  have hpasswd : etcPasswd = slash :: (etc ++ slash :: passwd) := by decide
  have hshadow : etcShadow = slash :: (etc ++ slash :: shadow) := by decide
  rw [hpasswd, hshadow, infix_iff_components (by decide) (by decide),
    infix_iff_components (by decide) (by decide), ← exists_or]
  exact exists_congr fun c => or_and_right

theorem accountPath_iff (hchars : pathname.chars = some path) :
    AccountPath pathname ↔ SpellsAccounts path := by
  rw [spellsAccounts_iff, AccountPath, hchars]
  simp

/-- An open by httpd is blocked, forwarded, or lacks a table. -/
inductive HttpdOutcome (s : State) (current : Pid) (env : HandlerEnv) (ptr : Address)
    (pathname : UserPath) (flags : Int32) (mode : UInt32) : HandlerOutcome → Prop
  | blocked : AccountPath pathname →
      HttpdOutcome s current env ptr pathname flags mode ⟨ptr, [], .ok (-1)⟩
  | noTable {fault : Fault} : ¬AccountPath pathname → usedTable s current ptr = 0 →
      HttpdOutcome s current env ptr pathname flags mode ⟨0, [], .error fault⟩
  | forwarded : ¬AccountPath pathname → usedTable s current ptr ≠ 0 →
      HttpdOutcome s current env ptr pathname flags mode
        ⟨usedTable s current ptr,
          [.original ⟨usedTable s current ptr, .open, .open pathname.address flags mode⟩],
          .ok (env.original [] ⟨usedTable s current ptr, .open,
            .open pathname.address flags mode⟩).toInt32⟩

theorem blockedOpen_httpd (s : State) (ptr : Address) (hhttpd : NamedHttpd current env)
    (hchars : pathname.chars ≠ none) (flags : Int32) (mode : UInt32) :
    HttpdOutcome s current env ptr pathname flags mode
      (blockedOpen s current env ptr pathname flags mode) := by
  have houtcome := overridden_outcome s current env ptr .open (.open pathname.address flags mode)
    (refuseAccounts pathname env.behindName)
  rw [blockedOpen]
  generalize overridden s current env ptr .open (.open pathname.address flags mode)
    (refuseAccounts pathname env.behindName) = o at houtcome
  obtain ⟨processName, hread, -⟩ := id hhttpd
  obtain ⟨hname, hopen⟩ := opened_of_read hread
  have hpolicy : PolicyOutcome current env (.blockedOpen pathname flags mode)
      (refuseAccounts pathname env.behindName processName) := policy_outcome hread (by simp)
  -- a call that is not refused has a path that the policy is not about
  have hallowed (h : Passes current env (refuseAccounts pathname env.behindName)) :
      ¬AccountPath pathname := by
    rw [(passes_read hread).mp h] at hpolicy
    cases hpolicy with
    | allowed _ hplain => exact fun hpath => hplain ⟨hhttpd.sees, hpath⟩
  cases houtcome with
  | unnamed hnull => exact absurd hnull hname
  | unopened _ hclosed => exact absurd hclosed hopen
  | refused hread' hrefuse =>
    cases hread.symm.trans hread'
    rw [hrefuse] at hpolicy
    cases hpolicy with
    | refusedUnlink hcall => cases hcall
    | refusedOpen hcall _ hpath =>
      cases hcall
      exact .blocked hpath
  | unreadable hread' hrefuse =>
    cases hread.symm.trans hread'
    rw [hrefuse] at hpolicy
    cases hpolicy with
    | unreadable hbad => exact absurd (fun _ => hchars) hbad
  | noTable hpass hnull => exact .noTable (hallowed hpass) hnull
  | forwarded hpass htable => exact .forwarded (hallowed hpass) htable

/-- For every process with `"httpd"` in its name and every path, an open is decided by what
the path denotes if and only if the path neither evades the search nor is caught on its way
to another file, and there is a table for the original. -/
theorem account_files_guarded_iff (s : State) (ptr : Address) (hhttpd : NamedHttpd current env)
    (hchars : pathname.chars = some path) (flags : Int32) (mode : UInt32) :
    GuardsAccounts env pathname flags mode path
        (blockedOpen s current env ptr pathname flags mode) ↔
      ¬Evades path ∧ ¬Overblocked path ∧
        (NamesAccounts path ∨ usedTable s current ptr ≠ 0) := by
  have hreadable : pathname.chars ≠ none := by simp [hchars]
  have houtcome := blockedOpen_httpd s ptr hhttpd hreadable flags mode
  generalize blockedOpen s current env ptr pathname flags mode = o at houtcome
  have hspells := accountPath_iff hchars
  cases houtcome with
  | blocked hpath =>
    have hspelled := hspells.mp hpath
    by_cases hnames : NamesAccounts path
    · refine iff_of_true ⟨fun _ => ⟨rfl, rfl⟩, fun hnot => absurd hnames hnot⟩ ?_
      exact ⟨fun h => h.2 hspelled, fun h => h.2 hnames, .inl hnames⟩
    · refine iff_of_false (fun h => ?_) fun h => h.2.1 ⟨hspelled, hnames⟩
      obtain ⟨table, hevents, -⟩ := h.forwarded hnames
      cases hevents
  | noTable hpath hnull =>
    have hnot : ¬SpellsAccounts path := fun h => hpath (hspells.mpr h)
    refine iff_of_false (fun h => ?_) fun h => ?_
    · by_cases hnames : NamesAccounts path
      · cases (h.blocked hnames).2
      · obtain ⟨table, hevents, -⟩ := h.forwarded hnames
        cases hevents
    · rcases h.2.2 with hnames | htable
      · exact h.1 ⟨hnames, hnot⟩
      · exact htable hnull
  | forwarded hpath htable =>
    have hnot : ¬SpellsAccounts path := fun h => hpath (hspells.mpr h)
    by_cases hnames : NamesAccounts path
    · refine iff_of_false (fun h => ?_) fun h => h.1 ⟨hnames, hnot⟩
      cases (h.blocked hnames).1
    · refine iff_of_true ⟨fun h => absurd h hnames, fun _ => ⟨_, rfl, rfl⟩⟩ ?_
      exact ⟨fun h => hnames h.1, fun h => hnot h.1, .inr htable⟩

/-- A path without empty components and dots cannot evade the search. -/
theorem not_evades_of_plain {names : List (List UInt8)}
    (hpath : components slash (cstr path) = [] :: names)
    (hplain : ∀ name ∈ names, name ≠ [] ∧ name ≠ [dot] ∧ name ≠ [dot, dot]) : ¬Evades path := by
  rintro ⟨hnames, hnot⟩
  have hlexical : lexical slash dot (cstr path) = names := by
    have hroot : enter dot [] [] = [] := if_pos (.inl rfl)
    rw [lexical, hpath, List.foldl_cons, hroot, foldl_enter hplain, List.append_nil,
      List.reverse_reverse]
  apply hnot
  rw [NamesAccounts, hlexical] at hnames
  rw [SpellsAccounts, hpath, List.tail_cons]
  rcases hnames with rfl | rfl
  · exact ⟨passwd, .inl List.prefix_rfl, List.infix_rfl⟩
  · exact ⟨shadow, .inr List.prefix_rfl, List.infix_rfl⟩

end

/-- The environment of a process with the command line `httpd`. -/
def httpdEnv : HandlerEnv := commandEnv (httpd ++ [0])

theorem namedHttpd_httpdEnv : NamedHttpd task1 httpdEnv := by
  have hname : httpdEnv.name ≠ 0 := by decide
  have hends : NameEnds task1 httpdEnv (httpd ++ [0]) := .inl (by decide)
  exact (namedHttpd_iff hname List.length_replicate rfl hends).mpr List.infix_rfl

/-- `/etc/passwd` as it stands. -/
theorem account_files_guarded_passwd :
    GuardsAccounts httpdEnv ⟨4096, some etcPasswd⟩ 0 0 etcPasswd
      (blockedOpen sampleBoot task1 httpdEnv 65536 ⟨4096, some etcPasswd⟩ 0 0) := by
  have hnames : NamesAccounts etcPasswd := by decide
  have hspells : SpellsAccounts etcPasswd :=
    (spellsAccounts_iff etcPasswd).mpr (.inl List.infix_rfl)
  exact (account_files_guarded_iff sampleBoot 65536 namedHttpd_httpdEnv rfl 0 0).mpr
    ⟨fun h => h.2 hspells, fun h => h.2 hnames, .inl hnames⟩

/-- `/etc//passwd` is opened. -/
theorem account_files_not_guarded :
    ¬∀ s current env ptr pathname path flags mode, NamedHttpd current env →
      pathname.chars = some path → (cstr path).head? = some slash → usedTable s current ptr ≠ 0 →
      GuardsAccounts env pathname flags mode path
        (blockedOpen s current env ptr pathname flags mode) := by
  intro hall
  let path := slash :: (etc ++ slash :: slash :: passwd)
  have hguards := hall sampleBoot task1 httpdEnv 65536 ⟨4096, some path⟩ path 0 0
    namedHttpd_httpdEnv rfl rfl (by decide)
  have hevades : Evades path := by
    refine ⟨by decide, fun hspells => ?_⟩
    exact absurd ((spellsAccounts_iff path).mp hspells) (by decide)
  exact ((account_files_guarded_iff sampleBoot 65536 namedHttpd_httpdEnv rfl 0 0).mp
    hguards).1 hevades

end SyscallVector.Audit

import StatementOutline.Proofs.Toml.Section
import StatementOutline.Settings.Files

/-!
# A project's file decides alone

A project's file may give any of the keys of its settings, in any order. The keys that it gives have
the values written there, and the others their defaults: nothing is taken from the user's file,
which may say anything or not be there (`load_of_assignments`). All that is asked of the reader of
TOML is that it takes the file for a table with the assignments as entries (`Toml.ReadsSections`),
which `Toml.read?` does. The value of a key does not depend on the order of the entries
(`Toml.Entries.value?_perm`).
-/

namespace StatementOutline

namespace Toml.Entries

/-- Where keys are different, the value of a key does not depend on the order of entries. -/
theorem value?_perm {a b : Entries} (h : a.Perm b) (hkeys : (a.map Prod.fst).Nodup) (key : String) :
    a.value? key = b.value? key := by
  unfold value?
  induction h with
  | nil => rfl
  | cons e _ ih =>
    rw [List.lookup_cons, List.lookup_cons, ih (List.nodup_cons.1 hkeys).2]
  | swap e f l =>
    have hne : f.1 ≠ e.1 := fun hfe =>
      (List.nodup_cons.1 hkeys).1 (hfe ▸ List.mem_cons_self)
    rw [List.lookup_cons, List.lookup_cons, List.lookup_cons, List.lookup_cons]
    grind
  | trans hab _ ihab ihbc =>
    rw [ihab hkeys, ihbc ((hab.map Prod.fst).nodup_iff.1 hkeys)]

theorem areUsable_iff {entries : Entries} :
    areUsable entries = true ↔ ∀ e ∈ entries, e.2.isUsable = true := by
  induction entries with
  | nil => simp [areUsable]
  | cons e entries ih => rw [areUsable, Bool.and_eq_true, ih, List.forall_mem_cons]

end Toml.Entries

open Toml (Assignment)

namespace Settings

variable {encoding : Option OffsetEncoding} {worker : Option Bool} {interval : Option Nat}
  {quote : String}

/-- An encoding by its name, in quotes. -/
def assignEncoding (quote : String) (encoding : OffsetEncoding) : Assignment :=
  ⟨"offset_encoding", quote ++ encoding.serialName ++ quote, .string encoding.serialName⟩

/-- A truth value by its name. -/
def assignWorker (worker : Bool) : Assignment :=
  ⟨"parse_on_worker", toString worker, .boolean worker⟩

/-- A number by its decimal digits. -/
def assignInterval (interval : Nat) : Assignment :=
  ⟨"cancel_check_interval", toString interval, .integer interval⟩

/-- The assignments of the keys that are given. -/
def assignments (quote : String) (encoding : Option OffsetEncoding) (worker : Option Bool)
    (interval : Option Nat) : List Assignment :=
  (encoding.map (assignEncoding quote)).toList ++ (worker.map assignWorker).toList ++
    (interval.map assignInterval).toList

/-- The settings with the keys that are given replaced. -/
def replacing (settings : Settings) (encoding : Option OffsetEncoding) (worker : Option Bool)
    (interval : Option Nat) : Settings where
  offsetEncoding := encoding.getD settings.offsetEncoding
  parseOnWorker := worker.getD settings.parseOnWorker
  checkInterval := interval.getD settings.checkInterval

theorem forall_assignments {p : Assignment → Prop}
    (hencoding : ∀ e ∈ encoding, p (assignEncoding quote e))
    (hworker : ∀ b ∈ worker, p (assignWorker b))
    (hinterval : ∀ n ∈ interval, p (assignInterval n)) :
    ∀ a ∈ assignments quote encoding worker interval, p a := by
  intro a ha
  simp only [assignments, List.mem_append, Option.mem_toList, Option.map_eq_some_iff] at ha
  rcases ha with (⟨e, he, rfl⟩ | ⟨b, hb, rfl⟩) | ⟨n, hn, rfl⟩
  · exact hencoding e he
  · exact hworker b hb
  · exact hinterval n hn

theorem nodup_assignments (quote : String) (encoding : Option OffsetEncoding) (worker : Option Bool)
    (interval : Option Nat) :
    ((assignments quote encoding worker interval).map Assignment.key).Nodup := by
  cases encoding <;> cases worker <;> cases interval <;>
    simp [assignments, assignEncoding, assignWorker, assignInterval]

theorem scalar_serialName (hquote : quote = "\"" ∨ quote = "'") (e : OffsetEncoding) :
    Toml.Scalar (quote ++ e.serialName ++ quote) (.string e.serialName) := by
  refine .string hquote ?_ ?_
  · cases e <;> decide
  · cases e <;> rfl

theorem wellWritten_assignments (hquote : quote = "\"" ∨ quote = "'")
    (hinterval : ∀ n ∈ interval, n < Nat.pow 2 63) :
    ∀ a ∈ assignments quote encoding worker interval, a.WellWritten := by
  have hencodingKey : Toml.BareKey "offset_encoding" := ⟨by decide, rfl⟩
  have hworkerKey : Toml.BareKey "parse_on_worker" := ⟨by decide, rfl⟩
  have hintervalKey : Toml.BareKey "cancel_check_interval" := ⟨by decide, rfl⟩
  apply forall_assignments
  · exact fun e _ => ⟨hencodingKey, scalar_serialName hquote e⟩
  · exact fun b _ => ⟨hworkerKey, .boolean b⟩
  · exact fun n hn => ⟨hintervalKey, .integer (hinterval n hn)⟩

theorem decodeCount?_natCast {n : Nat} (hn : n < Nat.pow 2 63) :
    decodeCount? (.integer n) = some n := by
  have hword : n < 0x8000000000000000 := hn
  have hfits : (0 ≤ (n : Int) && (n : Int) < 0x10000000000000000) = true := by
    simp only [Bool.and_eq_true, decide_eq_true_eq]
    omega
  simp only [decodeCount?, hfits, Int.toNat_natCast, if_true]

/-- Values that are given are decoded, and missing ones have their defaults. -/
theorem decodeFields?_given (hinterval : ∀ n ∈ interval, n < Nat.pow 2 63) :
    decodeFields? (encoding.map fun e => .string e.serialName) (worker.map .boolean)
        (interval.map fun n : Nat => .integer n) =
      some (replacing {} encoding worker interval) := by
  have hencoding : decodeOr? decodeEncoding? .char (encoding.map fun e => .string e.serialName) =
      some (encoding.getD .char) := by
    cases encoding with
    | none => rfl
    | some e => exact e.ofSerialName?_serialName
  have hworker : decodeOr? decodeBool? true (worker.map .boolean) = some (worker.getD true) := by
    cases worker <;> rfl
  have hcount : decodeOr? decodeCount? 256 (interval.map fun n : Nat => .integer n) =
      some (interval.getD 256) := by
    cases interval with
    | none => rfl
    | some n =>
      rw [Option.map_some, Option.getD_some, decodeOr?, decodeCount?_natCast (hinterval n rfl)]
  simp [decodeFields?, hencoding, hworker, hcount, replacing]

/-- A section with assignments in any order decodes to the defaults with their keys replaced. -/
theorem decodeSection?_assignments {given : List Assignment}
    (hgiven : given.Perm (assignments quote encoding worker interval))
    (hinterval : ∀ n ∈ interval, n < Nat.pow 2 63) :
    decodeSection? (.table .header (given.map Assignment.entry)) =
      some (replacing {} encoding worker interval) := by
  let entries := (assignments quote encoding worker interval).map Assignment.entry
  have hperm : (given.map Assignment.entry).Perm entries := hgiven.map _
  have hkeys : ((given.map Assignment.entry).map Prod.fst).Nodup := by
    rw [(hperm.map Prod.fst).nodup_iff, List.map_map]
    exact nodup_assignments quote encoding worker interval
  have husable : Toml.Entries.areUsable (given.map Assignment.entry) = true := by
    have hvalues : ∀ a ∈ assignments quote encoding worker interval, a.value.isUsable = true :=
      forall_assignments (fun _ _ => rfl) (fun _ _ => rfl) (fun _ _ => rfl)
    rw [Toml.Entries.areUsable_iff]
    intro e he
    obtain ⟨a, ha, rfl⟩ := List.mem_map.1 he
    exact hvalues a (hgiven.mem_iff.1 ha)
  have hencoding : Toml.Entries.value? entries "offset_encoding" =
      encoding.map fun e => .string e.serialName := by
    cases encoding <;> cases worker <;> cases interval <;> rfl
  have hworker : Toml.Entries.value? entries "parse_on_worker" = worker.map .boolean := by
    cases encoding <;> cases worker <;> cases interval <;> rfl
  have hcount : Toml.Entries.value? entries "cancel_check_interval" =
      interval.map fun n : Nat => .integer n := by
    cases encoding <;> cases worker <;> cases interval <;> rfl
  simp only [decodeSection?, husable, Toml.Entries.value?_perm hperm hkeys, hencoding, hworker,
    hcount, if_true]
  exact decodeFields?_given hinterval

theorem decode?_assignments {given : List Assignment}
    (hgiven : given.Perm (assignments quote encoding worker interval))
    (hinterval : ∀ n ∈ interval, n < Nat.pow 2 63) :
    decode? [("parser", .table .header (given.map Assignment.entry))] =
      some (replacing {} encoding worker interval) := by
  rw [← decodeSection?_assignments hgiven hinterval]
  rfl

theorem fromUTF8?_toUTF8 (text : String) : String.fromUTF8? text.toUTF8 = some text := by
  rw [String.fromUTF8?, String.toUTF8_eq_toByteArray, dif_pos text.isValidUTF8]
  rfl

/-- A project's file that makes sense is all that is looked at. -/
theorem load_of_ofText {read? : String → Option Toml.Entries} {files : String → Option ByteArray}
    {env : Environment} {project text : String} {settings : Settings}
    (hfile : files (projectPath project) = some text.toUTF8)
    (htext : ofText read? text = .ok settings) : load read? files env project = settings := by
  have hproject : ofFile read? (files (projectPath project)) = .ok settings := by
    rw [hfile, ofFile, fromUTF8?_toUTF8]
    exact htext
  rw [load, hproject]

/-- **A project's file replaces the defaults key by key.** Let a project's file have the line
`[parser]` and below it, in any order, one assignment for each key of some selection: the name of an
encoding in quotes of either kind, a truth value, a decimal number below `2 ^ 63`. Then the settings
of the project are the defaults with these keys replaced, whatever the environment and all other
files are. This holds with every reader that takes such documents as TOML has it, and `Toml.read?`
is one. -/
theorem load_of_assignments (files : String → Option ByteArray) (env : Environment)
    (project : String) (encoding : Option OffsetEncoding) (worker : Option Bool)
    (interval : Option Nat) {quote newline tail : String} {given : List Assignment}
    (hinterval : ∀ n ∈ interval, n < Nat.pow 2 63) (hquote : quote = "\"" ∨ quote = "'")
    (hnewline : newline = "\n" ∨ newline = "\r\n") (htail : tail = "" ∨ tail = newline)
    (hgiven : given.Perm (assignments quote encoding worker interval))
    (hfile : files (projectPath project) =
      some (newline.intercalate ("[parser]" :: given.map Assignment.text) ++ tail).toUTF8) :
    Toml.ReadsSections Toml.read? ∧
    ∀ read?, Toml.ReadsSections read? →
      load read? files env project = replacing {} encoding worker interval := by
  refine ⟨Toml.readsSections_read?, fun read? hreads => ?_⟩
  have hparser : Toml.BareKey "parser" := ⟨by decide, rfl⟩
  have hwritten : ∀ a ∈ given, a.WellWritten := fun a ha =>
    wellWritten_assignments hquote hinterval a (hgiven.mem_iff.1 ha)
  have hkeys : (given.map Assignment.key).Nodup :=
    (hgiven.map Assignment.key).nodup_iff.2 (nodup_assignments quote encoding worker interval)
  refine load_of_ofText hfile ?_
  have hread := hreads hparser hnewline htail hwritten hkeys
  rw [ofText, show "[parser]" = "[" ++ "parser" ++ "]" from rfl, hread, Option.bind_some,
    decode?_assignments hgiven hinterval]

/-- A project's file with two of the keys, the last line left open, and a user's file that sets the
third. -/
def twoKeyFiles (path : String) : Option ByteArray :=
  if path = "/work/.stree.toml" then
    some "[parser]\ncancel_check_interval = 9007199254740993\noffset_encoding = 'utf16'".toUTF8
  else if path = "/home/config.toml" then some "[parser]\nparse_on_worker = false\n".toUTF8
  else none

theorem load_of_assignments_twoKeyFiles :
    (userPath ⟨some "/home", none, none⟩).map (fun path => ofFile Toml.read? (twoKeyFiles path)) =
      some (.ok { parseOnWorker := false }) ∧
    load Toml.read? twoKeyFiles ⟨some "/home", none, none⟩ "/work" =
      { offsetEncoding := .utf16, parseOnWorker := true, checkInterval := 9007199254740993 } := by
  have hgiven : [assignInterval 9007199254740993, assignEncoding "'" .utf16].Perm
      (assignments "'" (some .utf16) none (some 9007199254740993)) := .swap _ _ _
  obtain ⟨hreads, hload⟩ := load_of_assignments twoKeyFiles ⟨some "/home", none, none⟩ "/work"
    (some .utf16) none (some 9007199254740993) (by decide) (.inr rfl) (.inl rfl) (.inl rfl) hgiven
    (by decide +kernel)
  exact ⟨by decide +kernel, hload Toml.read? hreads⟩

end Settings

end StatementOutline

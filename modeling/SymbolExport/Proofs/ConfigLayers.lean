import Mathlib.Data.List.Nodup
import SymbolExport.Command.Load
import SymbolExport.Proofs.SpacedText

/-!
# Layers of settings

A file of settings is an object with any members in any order. What it tells of each setting counts
unless a flag says otherwise, and where both are silent the default does. A known setting with a value
of the wrong kind, or one that is given twice, is an error rather than silence.
-/

namespace SymbolExport

open Json

/-- A member of an object as it is written. -/
structure Assignment where
  key : String
  keyPieces : List Piece
  spells : Spells keyPieces key.toList
  value : Spaced
  before : Gap := .none
  behind : Gap := .none
  front : Gap := .none
  after : Gap := .none

namespace Assignment

def spaced (a : Assignment) : SpacedMember where
  member :=
    { key := a.key
      keyText := quoted a.keyPieces
      quotes := ⟨a.keyPieces, rfl, a.spells⟩
      valueText := a.front.chars ++ a.value.chars }
  before := a.before
  behind := a.behind
  after := a.after

end Assignment

structure ObjectText where
  front : Gap := .none
  inside : Gap := .none
  assignments : List Assignment
  behind : Gap := .none

namespace ObjectText

def members (o : ObjectText) : List SpacedMember :=
  o.assignments.map Assignment.spaced

def chars (o : ObjectText) : List Char :=
  o.front.chars ++ ('\x7b' :: (o.inside.chars ++ (joined true (o.members.map SpacedMember.text) ++
    '\x7d' :: o.behind.chars)))

/-- What the object tells under a key: nothing, or a value that stands for something. -/
def Tells {α : Type} (o : ObjectText) (key : String) (means : Spaced → α → Prop) : Option α → Prop
  | none => ∀ a ∈ o.assignments, a.key ≠ key
  | some x => ∃ a ∈ o.assignments, a.key = key ∧ means a.value x

theorem octets_chars (o : ObjectText) :
    octets o.chars = octets o.front.chars ++ 0x7B :: (octets o.inside.chars ++
      (octets (joined true (o.members.map SpacedMember.text)) ++ 0x7D :: octets o.behind.chars)) := by
  rw [chars, octets_append, octets_cons, octets_append, octets_append, octets_cons]
  rfl

end ObjectText

def Json.Spaced.IsText (v : Spaced) (s : String) : Prop :=
  ∃ ps, v = .text ps ∧ Spells ps s.toList

namespace ExportConfig

def names : List String :=
  ["output", "format", "atomic"]

end ExportConfig

namespace ObjectText

def settingKeys (o : ObjectText) : List String :=
  (o.assignments.filter fun a => a.key ∈ ExportConfig.names).map Assignment.key

/-- A setting has a value of the wrong kind, or is given twice. -/
def Misconfigured (o : ObjectText) : Prop :=
  (∃ a ∈ o.assignments, a.key = "output" ∧ ∀ ps, a.value ≠ .text ps) ∨
  (∃ a ∈ o.assignments, a.key = "atomic" ∧ ∀ b, a.value ≠ .bool b) ∨
  (∃ a ∈ o.assignments, a.key = "format" ∧
    ∃ ps, a.value = .text ps ∧ ∀ f : RowFormat, ¬Spells ps f.text.toList) ∨
  ¬o.settingKeys.Nodup

theorem nodup_settingKeys {o : ObjectText} : o.settingKeys.Nodup ↔
    o.assignments.Pairwise fun a b => a.key = b.key → a.key ∉ ExportConfig.names := by
  unfold settingKeys
  rw [List.Nodup, List.pairwise_map, List.pairwise_filter]
  refine List.Pairwise.iff fun a b => ?_
  simp only [decide_eq_true_eq]
  constructor
  · intro differ same own
    exact differ own (same ▸ own) same
  · intro absent own _ same
    exact absent same own

/-- What the object tells under the key of a setting is told by the only member with that key. -/
theorem Tells.of_mem {α : Type} {o : ObjectText} {key : String} {means : Spaced → α → Prop}
    {told : Option α} (tells : o.Tells key means told) (once : o.settingKeys.Nodup)
    (own : key ∈ ExportConfig.names) {a : Assignment} (within : a ∈ o.assignments)
    (same : a.key = key) : ∃ x, told = some x ∧ means a.value x := by
  cases told with
  | none => exact absurd same (tells a within)
  | some x =>
      obtain ⟨b, listed, named, holds⟩ := tells
      have setting : ∀ c ∈ o.assignments, c.key = key →
          c ∈ o.assignments.filter fun a => a.key ∈ ExportConfig.names := by
        intro c within named
        exact List.mem_filter.mpr ⟨within, decide_eq_true (named ▸ own)⟩
      have unique : a = b := List.inj_on_of_nodup_map once (setting a within same)
        (setting b listed named) (same.trans named.symm)
      exact ⟨x, rfl, unique ▸ holds⟩

/-- What the object tells of each setting. -/
structure Gives (o : ObjectText) (output : Option String) (format : Option RowFormat)
    (atomic : Option Bool) : Prop where
  output : o.Tells "output" Spaced.IsText output
  format : o.Tells "format" (fun v f => v.IsText f.text) format
  atomic : o.Tells "atomic" (fun v b => v = .bool b) atomic

end ObjectText

namespace ExportConfig

variable {o : ObjectText} {output : Option String} {format : Option RowFormat}
  {atomic : Option Bool} {depth : Nat}

def slotsOf (output : Option String) (format : Option RowFormat) (atomic : Option Bool) :
    fields.Value :=
  (output, format.map pack, atomic, ())

theorem get_pack (f : RowFormat) : #v["full", "legacy"].get (pack f : Fin 2) = f.text := by
  cases f <;> rfl

theorem reads_text {v : Spaced} {s : String} (isText : v.IsText s) (front : Gap) {rest : Bytes}
    (ends : Ends rest) :
    Reads (Shape.text.read depth) (octets (front.chars ++ v.chars) ++ rest) s rest := by
  obtain ⟨ps, rfl, spells⟩ := isText
  rw [octets_append, List.append_assoc]
  have yields := yields_stringOf "a string" ⟨ps, rfl, spells⟩
  exact (Continues.gap front _ _).reads (yields.reads rest ends)

theorem reads_format {v : Spaced} {f : RowFormat} (isText : v.IsText f.text) (front : Gap)
    {rest : Bytes} (ends : Ends rest) :
    Reads ((shapeOf RowFormat).read depth) (octets (front.chars ++ v.chars) ++ rest) (pack f)
      rest := by
  obtain ⟨ps, rfl, spells⟩ := isText
  rw [octets_append, List.append_assoc]
  have known : (shapeOf RowFormat).Distinct := by decide +kernel
  have yields := yields_choice (known (pack f)) depth ⟨ps, rfl, get_pack f ▸ spells⟩
  exact (Continues.gap front _ _).reads (yields.reads rest ends)

theorem reads_flag (b : Bool) (front : Gap) {rest : Bytes} (ends : Ends rest) :
    Reads (Shape.flag.read depth) (octets (front.chars ++ (Spaced.bool b).chars) ++ rest) b rest := by
  rw [octets_append, List.append_assoc]
  exact (Continues.gap front _ _).reads ((yields_flag b).reads rest ends)

theorem legible (depth : Nat) (gives : o.Gives output format atomic) (once : o.settingKeys.Nodup) :
    ∀ m ∈ o.members, fields.Legible depth (slotsOf output format atomic) m.member := by
  refine List.forall_mem_map.mpr fun a within => ?_
  by_cases own : a.key ∈ names
  · refine .inl ⟨own, ?_⟩
    have cases : a.key = "output" ∨ a.key = "format" ∨ a.key = "atomic" := by
      simpa [names] using own
    rcases cases with named | named | named
    · obtain ⟨s, rfl, isText⟩ := gives.output.of_mem once (by decide) within named
      exact Fields.readsMember_head named (by decide) rfl fun rest => reads_text isText a.front
    · obtain ⟨f, rfl, isText⟩ := gives.format.of_mem once (by decide) within named
      have other : a.key ≠ "output" := by rw [named]; decide
      refine Fields.readsMember_tail other ?_
      exact Fields.readsMember_head named (by decide) rfl fun rest => reads_format isText a.front
    · obtain ⟨b, rfl, isFlag⟩ := gives.atomic.of_mem once (by decide) within named
      have notOutput : a.key ≠ "output" := by rw [named]; decide
      have notFormat : a.key ≠ "format" := by rw [named]; decide
      refine Fields.readsMember_tail notOutput (Fields.readsMember_tail notFormat ?_)
      refine Fields.readsMember_head named (by decide) rfl fun rest ends => ?_
      show Reads _ (octets (a.front.chars ++ a.value.chars) ++ rest) _ _
      rw [isFlag]
      exact reads_flag b a.front ends
  · exact .inr ⟨own, a.value.skippable.skipped a.front⟩

/-- A slot that holds what was told holds nothing else. -/
theorem slot_eq {shape : Shape} {name : String} {seen : List String} {v slot : Option shape.Value}
    (fills : Fills shape name seen v slot) (agrees : ∀ w w', shape.Agrees w w' → w = w')
    (present : v.isSome = true → name ∈ seen) : slot = v := by
  by_cases read : name ∈ seen
  · obtain ⟨w, rfl, w', rfl, same⟩ := fills.read read
    rw [agrees w w' same]
  · rw [fills.unread read]
    cases v with
    | none => rfl
    | some w => exact absurd (present rfl) read

theorem mem_of_tells {α : Type} {key : String} {means : Spaced → α → Prop} {told : Option α}
    (tells : o.Tells key means told) (present : told.isSome = true) :
    key ∈ o.members.map SpacedMember.key := by
  cases told with
  | none => cases present
  | some x =>
      obtain ⟨a, within, rfl, _⟩ := tells
      unfold ObjectText.members
      rw [List.map_map]
      exact List.mem_map_of_mem (f := SpacedMember.key ∘ Assignment.spaced) within

/-- The settings of a file are read as it tells them. -/
theorem ofJsonBytes_object (gives : o.Gives output format atomic) (once : o.settingKeys.Nodup) :
    ofJsonBytes (octets o.chars) =
      .ok (unpack (slotsOf output format atomic) : ExportConfig) := by
  have pairwise : o.members.Pairwise fun a b => a.key = b.key → a.key ∉ fields.names :=
    List.pairwise_map.mpr (ObjectText.nodup_settingKeys.mp once)
  obtain ⟨seen, ⟨out, form, atom, last⟩, ⟨outFills, formFills, atomFills, _⟩, keys, read⟩ :=
    Fields.reads_object "ExportConfig" (legible 126 gives once) pairwise
  have isOutput : out = output := by
    refine slot_eq outFills (fun _ _ => id) fun present => (keys _).mpr ⟨?_, by decide⟩
    exact mem_of_tells gives.output present
  have isFormat : form = format.map pack := by
    refine slot_eq formFills (fun _ _ => id) fun present => (keys _).mpr ⟨?_, by decide⟩
    exact mem_of_tells gives.format (by rwa [Option.isSome_map] at present)
  have isAtomic : atom = atomic := by
    refine slot_eq atomFills (fun _ _ => id) fun present => (keys _).mpr ⟨?_, by decide⟩
    exact mem_of_tells gives.atomic present
  have slots : fields.complete (out, form, atom, last) = .ok (slotsOf output format atomic) := by
    rw [isOutput, isFormat, isAtomic]
    rfl
  have run : Reader.run ((shapeOf ExportConfig).read depthLimit) (octets o.chars) =
      .ok (slotsOf output format atomic) := by
    rw [o.octets_chars]
    have object := read _ slots o.inside (octets o.behind.chars)
    exact Reads.run_gap o.behind ((Continues.gap o.front _ _).reads object)
  rw [ofJsonBytes, run]
  rfl

/-- What must hold of a member if its setting is read. -/
structure Sound (a : Assignment) : Prop where
  output : a.key = "output" → ∃ ps, a.value = .text ps
  format : a.key = "format" → ∀ ps, a.value = .text ps → ∃ f : RowFormat, Spells ps f.text.toList
  atomic : a.key = "atomic" → ∃ b, a.value = .bool b

theorem get_eq_text (i : Fin 2) : ∃ f : RowFormat, #v["full", "legacy"].get i = f.text := by
  match i with
  | 0 => exact ⟨.full, rfl⟩
  | 1 => exact ⟨.legacy, rfl⟩

theorem settles (a : Assignment) (depth : Nat) {rest : Bytes} (ends : Ends rest) :
    fields.Settles depth a.key (octets (a.front.chars ++ a.value.chars) ++ rest) rest (Sound a) := by
  rw [octets_append, List.append_assoc]
  unfold fields
  by_cases isOutput : a.key = "output"
  · rw [Fields.Settles, if_pos isOutput]
    refine .of_continues (Continues.gap a.front _ _) ((Allows.stringOf _ a.value).mono ?_)
    rintro s _ ⟨rfl, ps, text, _⟩
    exact ⟨rfl, fun _ => ⟨ps, text⟩, fun format => by simp [isOutput] at format,
      fun atomic => by simp [isOutput] at atomic⟩
  rw [Fields.Settles, if_neg isOutput]
  by_cases isFormat : a.key = "format"
  · rw [Fields.Settles, if_pos isFormat]
    refine .of_continues (Continues.gap a.front _ _) ((Allows.choice depth a.value).mono ?_)
    rintro i _ ⟨rfl, spells⟩
    refine ⟨rfl, fun output => absurd output isOutput, fun _ ps text => ?_,
      fun atomic => by simp [isFormat] at atomic⟩
    obtain ⟨f, name⟩ := get_eq_text i
    exact ⟨f, name ▸ spells ps text⟩
  rw [Fields.Settles, if_neg isFormat]
  by_cases isAtomic : a.key = "atomic"
  · rw [Fields.Settles, if_pos isAtomic]
    refine .of_continues (Continues.gap a.front _ _) ((Allows.flag a.value).mono ?_)
    rintro b _ ⟨rfl, value⟩
    exact ⟨rfl, fun output => absurd output isOutput, fun format => absurd format isFormat,
      fun _ => ⟨b, value⟩⟩
  · rw [Fields.Settles, if_neg isAtomic]
    have skipped := a.value.skippable.skipped a.front rest ends
    rw [octets_append, List.append_assoc] at skipped
    exact .of_reads skipped ⟨rfl, fun output => absurd output isOutput,
      fun format => absurd format isFormat, fun atomic => absurd atomic isAtomic⟩

/-- Settings are read from an object only if all of them are of their kind and none is repeated. -/
theorem sound_of_ofJsonBytes {config : ExportConfig}
    (read : ofJsonBytes (octets o.chars) = .ok config) :
    (∀ a ∈ o.assignments, Sound a) ∧ o.settingKeys.Nodup := by
  have object : Allows ((shapeOf ExportConfig).read depthLimit) (octets o.chars) fun _ _ =>
      (∀ a ∈ o.assignments, Sound a) ∧ o.assignments.Pairwise fun a b =>
        a.key = b.key → a.key ∉ fields.names := by
    rw [o.octets_chars]
    have each : ∀ a ∈ o.assignments, ∀ rest, Ends rest → fields.Settles 126 a.spaced.key
        (octets a.spaced.member.valueText ++ rest) rest (Sound a) :=
      fun a _ _ ends => settles a 126 ends
    exact .of_continues (Continues.gap o.front _ _)
      (Fields.allows_object "ExportConfig" each o.inside _)
  rw [ofJsonBytes] at read
  cases run : Reader.run ((shapeOf ExportConfig).read depthLimit) (octets o.chars) with
  | error fault => rw [run] at read; cases read
  | ok v =>
      obtain ⟨_, all, once⟩ := object.run run
      exact ⟨all, ObjectText.nodup_settingKeys.mpr once⟩

theorem not_sound_of_misconfigured (wrong : o.Misconfigured) :
    ¬((∀ a ∈ o.assignments, Sound a) ∧ o.settingKeys.Nodup) := by
  rintro ⟨all, once⟩
  rcases wrong with ⟨a, within, named, noText⟩ | ⟨a, within, named, noFlag⟩ |
    ⟨a, within, named, ps, text, noFormat⟩ | repeated
  · obtain ⟨ps, text⟩ := (all a within).output named
    exact noText ps text
  · obtain ⟨b, flag⟩ := (all a within).atomic named
    exact noFlag b flag
  · obtain ⟨f, spells⟩ := (all a within).format named ps text
    exact noFormat f spells
  · exact repeated once

end ExportConfig

namespace Tree

variable {t : Tree} {cwd : Location} {path : String} {content : Bytes}

theorem loadConfig_of_ok (json : Path.isYaml path = false) (file : t.read cwd path = .ok content)
    {config : ExportConfig} (read : ofJsonBytes content = .ok config) :
    t.loadConfig cwd path = .ok config := by
  rw [loadConfig, file]
  show (if Path.isYaml path = true then _ else _) = _
  rw [if_neg (by rw [json]; decide), read]

theorem loadConfig_of_error (json : Path.isYaml path = false)
    (file : t.read cwd path = .ok content) {fault : Fault}
    (read : (ofJsonBytes content : Except Fault ExportConfig) = .error fault) :
    t.loadConfig cwd path = .error (.parseConfigJson (fault.message content)) := by
  rw [loadConfig, file]
  show (if Path.isYaml path = true then _ else _) = _
  rw [if_neg (by rw [json]; decide), read]

end Tree

/-- A file of settings is read whatever the order of its members, the white space between them and the
values under keys that are no settings. Each setting is then what its flag says, or else the file, or
else the default. The file is refused if a setting has a value of the wrong kind or is given twice. -/
theorem settings_come_in_layers (t : Tree) (cwd : Location) (path : String) (o : ObjectText)
    (json : Path.isYaml path = false) (file : t.read cwd path = .ok (octets o.chars)) :
    (∀ output format atomic, o.Gives output format atomic → o.settingKeys.Nodup →
      ∃ config, t.loadConfig cwd path = .ok config ∧
        ∀ (outputFlag : Option String) (formatFlag : Option RowFormat) (noAtomic : Bool),
          let settings := config.withOverrides outputFlag formatFlag noAtomic
          settings.output = (outputFlag <|> output).getD "php.internals.csv" ∧
          settings.format = (formatFlag <|> format).getD .full ∧
          settings.atomic = (atomic.getD true && !noAtomic) ∧
          settings.options = { format := settings.format, atomic := settings.atomic }) ∧
    (o.Misconfigured → ∃ failure, t.loadConfig cwd path = .error failure) := by
  constructor
  · intro output format atomic gives once
    have read := ExportConfig.ofJsonBytes_object gives once
    refine ⟨_, Tree.loadConfig_of_ok json file read, fun outputFlag formatFlag noAtomic => ?_⟩
    refine ⟨?_, ?_, rfl, rfl⟩
    · cases outputFlag <;> rfl
    · cases formatFlag with
      | some f => rfl
      | none =>
          cases format with
          | none => rfl
          | some f => exact Shaped.unpack_pack f
  · intro wrong
    cases read : (ofJsonBytes (octets o.chars) : Except Fault ExportConfig) with
    | error fault => exact ⟨_, Tree.loadConfig_of_error json file read⟩
    | ok config =>
        have sound := ExportConfig.sound_of_ofJsonBytes read
        exact absurd sound (ExportConfig.not_sound_of_misconfigured wrong)

def Json.Gap.space : Gap where
  chars := [' ']
  blank := fun _ listed => .inl (List.mem_singleton.mp listed)

/-- An unknown key with a nested value, and a setting with an escaped letter in its key. -/
def ObjectText.sample : ObjectText where
  assignments :=
    [{ key := "x"
       keyPieces := [.plain 'x' (by decide)]
       spells := .plain 'x' _ .nil
       value := .list [(.none, .null, .none), (.space, .emptyObject .space, .none)]
       front := .space },
     { key := "atomic"
       keyPieces := [.code ⟨⟨0, false⟩, ⟨0, false⟩, ⟨6, false⟩, ⟨1, false⟩⟩, .plain 't' (by decide),
         .plain 'o' (by decide), .plain 'm' (by decide), .plain 'i' (by decide),
         .plain 'c' (by decide)]
       spells := .code _ (by unfold Quad.IsHigh; decide) (by unfold Quad.IsLow; decide)
         (.plain 't' _ (.plain 'o' _ (.plain 'm' _ (.plain 'i' _ (.plain 'c' _ .nil)))))
       value := .bool false
       before := .space
       behind := .space
       after := .space }]

/-- The sample turns atomic exports off, and is refused if all of it is written twice. -/
theorem sample_settings_come_in_layers :
    let o := ObjectText.sample
    let twice : ObjectText := { assignments := o.assignments ++ o.assignments }
    let t : Tree := { entries :=
      [(["once.json"], .file (octets o.chars)), (["twice.json"], .file (octets twice.chars))] }
    octets o.chars =
        Bytes.ofString "\x7b\"x\": [null, \x7b \x7d], \"\\u0061tomic\" :false \x7d" ∧
      Path.isYaml "once.json" = false ∧ t.read [] "once.json" = .ok (octets o.chars) ∧
      o.Gives none none (some false) ∧ o.settingKeys.Nodup ∧
      (∃ config, t.loadConfig [] "once.json" = .ok config ∧
        (config.withOverrides none (some .legacy) false).options =
          { format := .legacy, atomic := false }) ∧
      Path.isYaml "twice.json" = false ∧ t.read [] "twice.json" = .ok (octets twice.chars) ∧
      twice.Misconfigured ∧ ∃ failure, t.loadConfig [] "twice.json" = .error failure := by
  intro o twice t
  have json : Path.isYaml "once.json" = false := by decide
  have file : t.read [] "once.json" = .ok (octets o.chars) := rfl
  have gives : o.Gives none none (some false) := by
    refine ⟨?_, ?_, _, List.mem_cons_of_mem _ List.mem_cons_self, rfl, rfl⟩
    · show ∀ a ∈ ObjectText.sample.assignments, a.key ≠ "output"
      decide
    · show ∀ a ∈ ObjectText.sample.assignments, a.key ≠ "format"
      decide
  have once : o.settingKeys.Nodup := by decide
  obtain ⟨config, loaded, layers⟩ :=
    (settings_come_in_layers t [] "once.json" o json file).1 _ _ _ gives once
  obtain ⟨_, format, atomic, options⟩ := layers none (some .legacy) false
  have options : (config.withOverrides none (some .legacy) false).options =
      { format := .legacy, atomic := false } := by
    rw [options, format, atomic]
    rfl
  have json' : Path.isYaml "twice.json" = false := by decide
  have file' : t.read [] "twice.json" = .ok (octets twice.chars) := rfl
  have wrong : twice.Misconfigured := .inr (.inr (.inr (by decide)))
  have refused := (settings_come_in_layers t [] "twice.json" twice json' file').2 wrong
  exact ⟨by decide, json, file, gives, once, ⟨config, loaded, options⟩, json', file', wrong, refused⟩

end SymbolExport

import SymbolExport.Proofs.AlikeRecords

/-! # Data that never shows

Two runtimes look alike if they fail on the same questions with the same errors and otherwise differ in
nothing that a record is shaped from. Their enumerations run in step, item by item, and so no export
tells them apart, in either format and however little room there is. A runtime looks like itself with
everything blotted out that is not exported, values of variables above all.
-/

namespace SymbolExport

/-! ## Looking alike -/

/-- Modifiers with the same effect. Whether a protected member is called private too has none. -/
structure Modifier.LookAlike (modifiers others : List Modifier) : Prop where
  isStatic : modifiers.contains .static = others.contains .static
  isProtected : modifiers.contains .prot = others.contains .prot
  isPrivate : modifiers.contains .prot = false → modifiers.contains .priv = others.contains .priv

structure MethodDescriptor.LooksLike (m n : MethodDescriptor) : Prop where
  name : m.name = n.name
  parameters : m.parameters.map (·.name) = n.parameters.map (·.name)
  modifiers : Modifier.LookAlike m.modifiers n.modifiers

structure PropertyDescriptor.LooksLike (p q : PropertyDescriptor) : Prop where
  name : p.name = q.name
  modifiers : Modifier.LookAlike p.modifiers q.modifiers

/-- Two classes agree on all that is exported of them, whatever they call themselves. -/
structure ClassDescriptor.LooksLike (d e : ClassDescriptor) : Prop where
  isInterface : d.isInterface = e.isInterface
  isTrait : d.isInterface = false → d.isTrait = e.isTrait
  parent : d.parent.getD "" = e.parent.getD ""
  interfaces : d.interfaces = e.interfaces
  isFinal : d.isFinal = e.isFinal
  isAbstract : d.isAbstract = e.isAbstract
  docComment : d.docComment.getD "" = e.docComment.getD ""
  methods : List.Forall₂ MethodDescriptor.LooksLike d.methods e.methods
  properties : List.Forall₂ PropertyDescriptor.LooksLike d.properties e.properties

def VariableDescriptor.LooksLike (v w : VariableDescriptor) : Prop :=
  v.name = w.name

/-- Two runtimes give the same errors and otherwise answers that look alike. -/
structure Reflector.LooksLike (r q : Reflector) : Prop where
  vars : SameUpTo (List.Forall₂ VariableDescriptor.LooksLike) r.vars q.vars
  functions : r.functions = q.functions
  declared : r.declared = q.declared
  classes : ∀ names, r.declared = .ok names → ∀ name ∈ names,
    SameUpTo ClassDescriptor.LooksLike (r.reflect name) (q.reflect name)
  constants : r.constants = q.constants

/-- Two exports end with the same sink, and with the same error or with summaries that differ at most
in the times. -/
structure SameExport (a b : Except ExportError ExportSummary × Csv.Sink) : Prop where
  outcome : SameUpTo (fun s t : ExportSummary => s.format = t.format ∧ s.records = t.records ∧
    s.rowsWritten = t.rowsWritten ∧ s.output = t.output) a.1 b.1
  sink : a.2 = b.2

/-! ## Shaping -/

theorem Modifier.LookAlike.visibility_eq {modifiers others : List Modifier}
    (h : Modifier.LookAlike modifiers others) :
    Visibility.ofFlags (modifiers.contains .prot) (modifiers.contains .priv) =
      Visibility.ofFlags (others.contains .prot) (others.contains .priv) := by
  rw [← h.isProtected]
  cases shared : modifiers.contains .prot with
  | true => rfl
  | false => rw [h.isPrivate shared]

theorem ClassDescriptor.LooksLike.kind_eq {d e : ClassDescriptor} (h : d.LooksLike e) :
    ClassKind.ofFlags d.isInterface d.isTrait = ClassKind.ofFlags e.isInterface e.isTrait := by
  rw [← h.isInterface]
  cases interface : d.isInterface with
  | true => rfl
  | false => rw [h.isTrait interface]

theorem MethodDescriptor.LooksLike.record_eq {m n : MethodDescriptor} (h : m.LooksLike n)
    (className : String) : m.record className = n.record className := by
  simp only [MethodDescriptor.record, MethodDescriptor.has, h.name, h.parameters,
    h.modifiers.isStatic, h.modifiers.visibility_eq]

theorem PropertyDescriptor.LooksLike.record_eq {p q : PropertyDescriptor} (h : p.LooksLike q)
    (className : String) : p.record className = q.record className := by
  simp only [PropertyDescriptor.record, PropertyDescriptor.has, h.name, h.modifiers.isStatic,
    h.modifiers.visibility_eq]

theorem ClassDescriptor.LooksLike.records_eq {d e : ClassDescriptor} (h : d.LooksLike e)
    (name : String) : d.records name = e.records name := by
  have own : d.record name = e.record name := by
    simp only [ClassDescriptor.record, h.parent, h.interfaces, h.isFinal, h.isAbstract,
      h.docComment, h.kind_eq]
  have methods : d.methods.map (fun m => Record.method (m.record name)) =
      e.methods.map fun m => .method (m.record name) :=
    map_eq_of_forall₂ (fun _ _ alike => by rw [alike.record_eq]) h.methods
  have properties : d.properties.map (fun p => Record.member (p.record name)) =
      e.properties.map fun p => .member (p.record name) :=
    map_eq_of_forall₂ (fun _ _ alike => by rw [alike.record_eq]) h.properties
  simp only [ClassDescriptor.records, ClassDescriptor.memberRecords, own, methods, properties]

/-! ## Enumerations in step -/

namespace Reflector

variable {r q : Reflector}

theorem LooksLike.constantItems_alike (h : r.LooksLike q) :
    AlikeItems r.constantItems q.constantItems := by
  rw [constantItems, constantItems, h.constants]
  exact .refl _

theorem LooksLike.variableItems_alike (h : r.LooksLike q) {captured others : List VariableDescriptor}
    (names : List.Forall₂ VariableDescriptor.LooksLike captured others) :
    AlikeItems (r.variableItems captured) (q.variableItems others) := by
  induction names with
  | nil => exact h.constantItems_alike
  | cons first _ ih => exact .cons (.ok (.var first)) ih

/-- Class by class; the error of a class that cannot be reflected is the same, and ends both. -/
theorem classItems_alike {behind others : List Item}
    (rest : AlikeItems behind others) {names : List String}
    (listed : ∀ name ∈ names, SameUpTo ClassDescriptor.LooksLike (r.reflect name) (q.reflect name)) :
    AlikeItems (r.classItems behind names) (q.classItems others names) := by
  induction names with
  | nil => exact rest
  | cons name names ih =>
      rw [List.forall_mem_cons] at listed
      have later := ih listed.2
      have answers := listed.1
      unfold classItems
      generalize r.reflect name = answer at answers
      generalize q.reflect name = other at answers
      cases answers with
      | error e => exact .refl _
      | @ok d e alike =>
          change AlikeItems ((d.records name).map .ok ++ _) ((e.records name).map .ok ++ _)
          rw [alike.records_eq name]
          exact later.append_left _

theorem LooksLike.declaredItems_alike (h : r.LooksLike q) {captured others : List VariableDescriptor}
    (names : List.Forall₂ VariableDescriptor.LooksLike captured others) :
    AlikeItems (r.declaredItems captured) (q.declaredItems others) := by
  unfold declaredItems
  rw [← h.declared]
  cases answer : r.declared with
  | error e => exact .refl _
  | ok listed =>
      exact classItems_alike (h.variableItems_alike names) (h.classes listed answer)

theorem LooksLike.functionItems_alike (h : r.LooksLike q) {captured others : List VariableDescriptor}
    (names : List.Forall₂ VariableDescriptor.LooksLike captured others) :
    AlikeItems (r.functionItems captured) (q.functionItems others) := by
  unfold functionItems
  rw [← h.functions]
  cases r.functions with
  | error e => exact .refl _
  | ok functions => exact (h.declaredItems_alike names).append_left _

/-- Runtimes that look alike are enumerated in step, also when they fail midway. -/
theorem LooksLike.items_alike (h : r.LooksLike q) : AlikeItems r.items q.items := by
  have answers := h.vars
  unfold items
  generalize r.vars = answer at answers
  generalize q.vars = other at answers
  cases answers with
  | error e => exact .refl _
  | ok names => exact h.functionItems_alike names

/-- Items that are exported alike give the same export. -/
theorem exportTo_congr (alike : AlikeItems r.items q.items) (format : RowFormat)
    (times later : Times) (sink : Csv.Sink) :
    SameExport (r.exportTo format times sink) (q.exportTo format later sink) := by
  unfold exportTo
  simp only [enumerate_items, alike.rowItems_eq format, alike.tally_eq]
  split
  · exact ⟨.error _, rfl⟩
  · split
    · exact ⟨.error _, rfl⟩
    · exact ⟨.ok ⟨rfl, rfl, rfl, rfl⟩, rfl⟩

end Reflector

/-! ## Blotting out -/

/-- The modifiers that decide about a record, each at most once. -/
def Modifier.exported (modifiers : List Modifier) : List Modifier :=
  [.static, .prot, .priv].filter fun modifier => modifiers.contains modifier

def MethodDescriptor.redacted (m : MethodDescriptor) : MethodDescriptor :=
  { m with modifiers := Modifier.exported m.modifiers, docComment := none }

def PropertyDescriptor.redacted (p : PropertyDescriptor) : PropertyDescriptor :=
  { p with modifiers := Modifier.exported p.modifiers, docComment := none }

def ClassDescriptor.redacted (d : ClassDescriptor) : ClassDescriptor :=
  { d with
    name := ""
    methods := d.methods.map (·.redacted)
    properties := d.properties.map (·.redacted) }

def VariableDescriptor.redacted (v : VariableDescriptor) : VariableDescriptor :=
  { name := v.name, value := .null }

/-- A runtime without the values of its variables, the doc comments of members, the names by which
descriptors call themselves, the order and repetition of modifiers and those without effect. -/
def Reflector.redacted (r : Reflector) : Reflector :=
  { r with
    vars := r.vars.map fun captured => captured.map (·.redacted)
    reflect := fun name => (r.reflect name).map (·.redacted) }

theorem Modifier.contains_exported {modifiers : List Modifier} {modifier : Modifier}
    (h : modifier ∈ [Modifier.static, .prot, .priv]) :
    (Modifier.exported modifiers).contains modifier = modifiers.contains modifier := by
  rw [Bool.eq_iff_iff, List.contains_iff_mem, Modifier.exported, List.mem_filter]
  exact and_iff_right h

theorem Modifier.lookAlike_exported (modifiers : List Modifier) :
    Modifier.LookAlike modifiers (Modifier.exported modifiers) where
  isStatic := (Modifier.contains_exported (by simp)).symm
  isProtected := (Modifier.contains_exported (by simp)).symm
  isPrivate _ := (Modifier.contains_exported (by simp)).symm

theorem MethodDescriptor.looksLike_redacted (m : MethodDescriptor) : m.LooksLike m.redacted :=
  ⟨rfl, rfl, Modifier.lookAlike_exported m.modifiers⟩

theorem PropertyDescriptor.looksLike_redacted (p : PropertyDescriptor) : p.LooksLike p.redacted :=
  ⟨rfl, Modifier.lookAlike_exported p.modifiers⟩

theorem VariableDescriptor.looksLike_redacted (v : VariableDescriptor) : v.LooksLike v.redacted :=
  rfl

theorem forall₂_map_self {α : Type} {related : α → α → Prop} {f : α → α}
    (h : ∀ a, related a (f a)) (l : List α) : List.Forall₂ related l (l.map f) := by
  rw [List.forall₂_map_right_iff, List.forall₂_same]
  exact fun a _ => h a

theorem ClassDescriptor.looksLike_redacted (d : ClassDescriptor) : d.LooksLike d.redacted where
  isInterface := rfl
  isTrait _ := rfl
  parent := rfl
  interfaces := rfl
  isFinal := rfl
  isAbstract := rfl
  docComment := rfl
  methods := forall₂_map_self MethodDescriptor.looksLike_redacted d.methods
  properties := forall₂_map_self PropertyDescriptor.looksLike_redacted d.properties

theorem SameUpTo.map_self {ε α : Type} {related : α → α → Prop} {f : α → α}
    (h : ∀ a, related a (f a)) (x : Except ε α) : SameUpTo related x (x.map f) := by
  cases x with
  | error e => exact .error e
  | ok a => exact .ok (h a)

namespace Reflector

theorem looksLike_redacted (r : Reflector) : r.LooksLike r.redacted where
  vars := .map_self (forall₂_map_self VariableDescriptor.looksLike_redacted) r.vars
  functions := rfl
  declared := rfl
  classes _ _ name _ := .map_self ClassDescriptor.looksLike_redacted (r.reflect name)
  constants := rfl

/-- No export tells runtimes apart that look alike: the sink is the same, and so is the error or all
of the summary but its times. In particular nothing of what is blotted out ever shows. -/
theorem unexported_data_never_shows {r q : Reflector} (alike : r.LooksLike q) (format : RowFormat)
    (times later : Times) (sink : Csv.Sink) :
    SameExport (r.exportTo format times sink) (q.exportTo format later sink) ∧
      SameExport (r.exportTo format times sink) (r.redacted.exportTo format later sink) :=
  ⟨exportTo_congr alike.items_alike format times later sink,
    exportTo_congr r.looksLike_redacted.items_alike format times later sink⟩

/-- Two runtimes whose second class vanishes, with a secret in one of them, and little room. -/
theorem secret_value_never_shows :
    let runtime (value : RuntimeValue) (d : ClassDescriptor) : Reflector :=
      { vars := .ok [{ name := "token", value }]
        functions := .ok ["strlen"]
        declared := .ok ["A", "B"]
        reflect := fun name => if name = "A" then .ok d else .error (.vanished name)
        constants := .ok [] }
    let r := runtime (.text "s3cret")
      { name := "A"
        methods := [{ name := "run", modifiers := [.final, .static, .priv, .static],
                      docComment := some "Runs." }] }
    let q := runtime .null
      { name := "other", methods := [{ name := "run", modifiers := [.priv, .pub, .static] }] }
    let times : Times := { started := "", finished := "" }
    let sink : Csv.Sink := { room := some 20 }
    r.LooksLike q ∧ SameExport (r.exportTo .full times sink) (q.exportTo .full times sink) ∧
      SameExport (r.exportTo .full times sink) (r.redacted.exportTo .full times sink) := by
  intro runtime r q times sink
  have alike : r.LooksLike q := by
    refine ⟨.ok (.cons rfl .nil), rfl, rfl, ?_, rfl⟩
    intro names _ name _
    by_cases first : name = "A"
    · simp only [r, q, runtime, if_pos first]
      refine .ok ⟨rfl, fun _ => rfl, rfl, rfl, rfl, rfl, rfl, .cons ?_ .nil, .nil⟩
      exact ⟨rfl, rfl, rfl, rfl, fun _ => rfl⟩
    · simp only [r, q, runtime, if_neg first]
      exact .error _
  exact ⟨alike, unexported_data_never_shows alike .full times times sink⟩

end Reflector

end SymbolExport

/-
This file says which directives with a body end without a message. Reading a body takes three
steps, each with faults of its own: the text is read as a value, a value has to be there, and the
value is read as a part of a document. What is wrong with the form of the text and what does not fit
the part has words, and is reported with the comment of the directive.

Two kinds of faults have none. A text can hold something of the right form that is no value: an
escape beyond the last code point, a date of no day, a version of too many digits, a default that
leads back to itself. And a value can hold a whole number that has no decimal text, where text is
wanted. A directive whose body holds neither is applied or reported, whatever the document.
-/

import GoApiDoc.Report
import GoApiDoc.Proofs.LongNumbers
import GoApiDoc.Proofs.NodeFaults

namespace GoApiDoc

open Document Yaml
open Go (bind_eq_error)

/-! ### Faults of a body -/

/-- What keeps a value from being read as a part of a document. -/
inductive ValueFault (value : Value) : DirectiveFault → Prop
  | misfits (found : List Misfit) : ValueFault value (.misfits found)
  | notMapping : ValueFault value .notMapping
  | numberTooLong (long : value.allText = false) : ValueFault value .numberTooLong

/-- What keeps the body of a directive from being read as a part of a document. -/
inductive BodyFault (directive : Directive) : DirectiveFault → Prop
  | unreadable {fault : Yaml.Fault} (failed : load directive.body = .error fault) :
      BodyFault directive (.unreadable fault)
  | noBody (read : load directive.body = .ok .null) : BodyFault directive (.noBody directive.kind)
  | value {value : Value} {fault : DirectiveFault} (read : load directive.body = .ok value)
      (found : ValueFault value fault) : BodyFault directive fault

section

variable {directive : Directive} {Part : Type} {fault : DirectiveFault}

end

/-! ### Reports -/

/-- What in the body of a directive accounts for a fault without words. -/
inductive Directive.Unworded (directive : Directive) : DirectiveFault → Prop
  | unreadable {fault : Yaml.Fault} (found : LoadFault directive.body fault)
      (other : fault ≠ .malformed) : Unworded directive (.unreadable fault)
  | numberTooLong {value : Value} (read : load directive.body = .ok value)
      (long : value.allText = false) : Unworded directive .numberTooLong

section

variable {directive : Directive} {fault : DirectiveFault} (document : Document)
  (described : directive.kind ≠ .objectSchema)

include described

end

theorem Directive.Unworded.reason? {directive : Directive} {fault : DirectiveFault}
    (unworded : directive.Unworded fault) (details : Details) : fault.reason? details = none := by
  cases unworded with
  | numberTooLong read long => rfl
  | @unreadable fault found other =>
    cases fault with
    | malformed => exact absurd rfl other
    | _ => rfl

theorem BodyFault.reason? {directive : Directive} {fault : DirectiveFault}
    (found : BodyFault directive fault) (details : Details) :
    (∃ reason, fault.reason? details = some reason) ∨ directive.Unworded fault := by
  cases found with
  | noBody read => exact Or.inl ⟨_, rfl⟩
  | value read found =>
    cases found with
    | misfits found => exact Or.inl ⟨_, rfl⟩
    | notMapping => exact Or.inl ⟨_, rfl⟩
    | numberTooLong long => exact Or.inr (.numberTooLong read long)
  | @unreadable fault failed =>
    by_cases malformed : fault = .malformed
    · subst malformed
      exact Or.inl ⟨_, rfl⟩
    · have fails := load_fails directive.body
      rw [failed] at fails
      exact Or.inr (.unreadable (fails.resolve_left malformed) malformed)

end GoApiDoc

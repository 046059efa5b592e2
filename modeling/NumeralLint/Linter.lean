/-
Rules and linters.

A linter is an ordered list of rules.  Each rule checks a document from the
start, and the advisories come in the order of the rules.
-/
import NumeralLint.Advisory.Basic
import NumeralLint.Config.Basic

namespace NumeralLint

/-- A rule on the numerals of a document. -/
inductive Rule where
  | smallIntegers (rule : SmallIntegers)
  | alignment (rule : Alignment)

namespace Rule

def id : Rule → Text
  | smallIntegers _ => SmallIntegers.ruleId
  | alignment _ => Alignment.ruleId

def description : Rule → Text
  | smallIntegers _ => SmallIntegers.description
  | alignment _ => Alignment.description

def findings (doc : Document) : Rule → List Finding
  | smallIntegers rule => rule.findings doc.originalRange doc.lines
  | alignment rule => rule.findings doc.originalRange doc.lines

def logRecords (doc : Document) : Rule → List LogRecord
  | smallIntegers rule => rule.logRecords doc.lines
  | alignment rule => rule.logRecords doc.resource doc.originalRange doc.lines

def check (doc : Document) (rule : Rule) : List Advisory :=
  doc.advisories rule.id (rule.findings doc)

end Rule

/-- Rules, in the order in which they are applied. -/
structure Linter where
  rules : List Rule

namespace Linter

/-- The rules that a configuration enables. -/
def ofConfig (config : Config) : Linter where
  rules :=
    (if config.smallIntegers.enabled then
      [.smallIntegers ⟨config.smallIntegers.limit, Abbreviations.usual.sentences⟩] else [])
    ++ (if config.alignment.enabled then
      [.alignment ⟨config.alignment.threshold, config.alignment.alignedTypes⟩] else [])

/-- The linter with only the rules whose identifiers are listed. -/
def restrict (linter : Linter) (ids : List Text) : Linter where
  rules := linter.rules.filter fun rule => ids.contains rule.id

/-- The advisories of all rules on a document. -/
def check (linter : Linter) (doc : Document) : List Advisory :=
  linter.rules.flatMap (Rule.check doc)

def logRecords (linter : Linter) (doc : Document) : List LogRecord :=
  linter.rules.flatMap (Rule.logRecords doc)

end Linter

end NumeralLint

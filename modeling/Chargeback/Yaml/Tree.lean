/-!
# The tree of a document

A document is a scalar, a sequence or a mapping. What is not written, such as a value that is
missing after its colon, is the plain scalar without text; so is a document without content.

Which tree a text stands for is up to the reader, which a library brings along; what is done with
a tree is stated for all readers.
-/

namespace Chargeback.Yaml

/-- A document or a part of one. -/
inductive Tree where
  | scalar (isPlain : Bool) (text : String)
  | sequence (items : List Tree)
  | mapping (entries : List (Tree × Tree))
  deriving Repr, Inhabited

/-- What is not written. -/
def Tree.absent : Tree := .scalar true ""

/-- A reader of texts with one document. -/
class Reader where
  read? : String → Option Tree

end Chargeback.Yaml

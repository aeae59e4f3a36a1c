import OutlineServer.ArrivalMap
import OutlineServer.Token.Bracketed
import OutlineServer.Token.Declared

/-!
# Token strategies

A strategy says where tokens come from.  A classifier is a strategy under a name, and a registry
holds classifiers under their names in order of registration; registering a name again replaces its
classifier in place.
-/
namespace OutlineServer

inductive TokenStrategy where
  /-- From what the text writes in brackets. -/
  | bracketed
  /-- From the names that the text declares. -/
  | declared
deriving DecidableEq

namespace TokenStrategy

def name : TokenStrategy → Text
  | bracketed => "annotation"
  | declared => "declarations"

def all : List TokenStrategy := [bracketed, declared]

def named? (name : Text) : Option TokenStrategy := all.find? (fun s => s.name = name)

def classify : TokenStrategy → Text → List TokenSpan
  | bracketed => Token.classifyBracketed
  | declared => Token.classifyDeclared

end TokenStrategy

structure TokenClassifier where
  name : Text
  strategy : TokenStrategy
deriving DecidableEq

namespace TokenClassifier

def standard (strategy : TokenStrategy) : TokenClassifier := ⟨strategy.name, strategy⟩

def classify (c : TokenClassifier) (text : Text) : List TokenSpan := c.strategy.classify text

end TokenClassifier

abbrev ClassifierRegistry := ArrivalMap TokenClassifier

namespace ClassifierRegistry

def register (r : ClassifierRegistry) (c : TokenClassifier) : ClassifierRegistry :=
  r.insert c.name c

def standard : ClassifierRegistry :=
  TokenStrategy.all.foldl (fun r s => register r (.standard s)) ArrivalMap.empty

end ClassifierRegistry

end OutlineServer

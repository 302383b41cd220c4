import Gradual.Builder

/-!
What the language provides: the classes, functions and protocol methods that the rules of the
checker look up by name. Everything is declared and nothing has a body.
-/

namespace Gradual.Builtins

open Builder

/-- A type variable of a class. -/
def typeVar (b : Builder) (name : String) (id : Int) : Ty := .typeVar (.plain name id b.objectType)

/-- Declares methods of one signature. -/
def declareMethods (c : ClassId) (s : Signature) (names : List String) : Build Unit :=
  names.forM fun name => discard (declareMethod c name s)

/-- Declares the comparisons by order. -/
def declareOrder (c : ClassId) (self bool : Ty) : Build Unit :=
  declareMethods c (.positional [self] bool) ["__lt__", "__gt__", "__le__", "__ge__"]

/-- A constructor with one argument of any type, which may be left out. -/
def optionalAnyInit : Signature := .ofFormals [.any] [.opt] [some "x"] .void

/-- Declares the classes. The class of all values comes first, so that the others derive from it. -/
def declareClasses : Build Builtins := do
  let object ← newPlainClass "object" []
  modify fun b => { b with object := some object }
  let type ← newPlainClass "type" []
  let function ← newPlainClass "function" []
  let int ← newPlainClass "int" []
  let float ← newPlainClass "float" []
  let str ← newPlainClass "str" []
  let bytes ← newPlainClass "bytes" []
  let unicode ← newPlainClass "unicode" []
  let bool ← newPlainClass "bool" [int]
  let tuple ← newPlainClass "tuple" []
  let slice ← newPlainClass "slice" []
  let iterable ← newClass "Iterable" ["T"] []
  setAbstract iterable
  let b ← get
  let iterableOf (t : Ty) : List Instance := [b.classes.instanceOf iterable [t]]
  let t := typeVar b "T" 1
  let iterator ← newClass "Iterator" ["T"] (iterableOf t)
  setAbstract iterator
  let list ← newClass "list" ["T"] (iterableOf t)
  let set ← newClass "set" ["T"] (iterableOf t)
  let dict ← newClass "dict" ["K", "V"] (iterableOf (typeVar b "K" 1))
  let baseException ← newPlainClass "BaseException" []
  let exception ← newPlainClass "Exception" [baseException]
  return {
    object, type, function, int, float, str, bytes, unicode, bool, list, dict, set, tuple, slice
    iterable, iterator, baseException, exception }

def declareNumbers (c : Builtins) (object int float bool : Ty) : Build Unit := do
  declareMethods c.object (.positional [] .void) ["__init__"]
  declareMethods c.object (.positional [object] bool) ["__eq__", "__ne__"]
  declareMethods c.int optionalAnyInit ["__init__"]
  declareMethods c.int (.positional [int] int)
    ["__add__", "__sub__", "__mul__", "__floordiv__", "__mod__", "__pow__", "__and__", "__or__",
      "__xor__", "__lshift__", "__rshift__", "__div__"]
  declareMethods c.int (.positional [int] float) ["__truediv__"]
  declareMethods c.int (.positional [] int) ["__neg__", "__pos__", "__invert__"]
  declareOrder c.int int bool
  declareMethods c.float optionalAnyInit ["__init__"]
  declareMethods c.float (.positional [float] float)
    ["__add__", "__sub__", "__mul__", "__truediv__", "__div__", "__pow__"]
  declareMethods c.float (.positional [] float) ["__neg__", "__pos__"]
  declareOrder c.float float bool

/-- Declares the methods that the two classes of text share. -/
def declareText (c : ClassId) (self int slice bool : Ty) : Build Unit := do
  declareMethods c optionalAnyInit ["__init__"]
  declareMethods c (.positional [self] self) ["__add__"]
  declareMethods c (.positional [int] self) ["__mul__"]
  declareMethods c (.positional [.any] self) ["__mod__"]
  declareMethods c (.positional [self] bool) ["__contains__"]
  declareMethods c (.positional [] self) ["upper"]
  discard <| declareOverloadedMethod c "__getitem__"
    [.positional [int] self, .positional [slice] self]
  declareOrder c self bool

def declareContainers (c : Builtins) (object int slice bool : Ty) : Build Unit := do
  let b ← get
  let t := typeVar b "T" 1
  let k := typeVar b "K" 1
  let v := typeVar b "V" 2
  let iteratorOf (item : Ty) : Ty := b.instanceType c.iterator [item]
  let list := b.instanceType c.list [t]
  let contains : Signature := .positional [object] bool
  declareMethods c.tuple (.positional [int] .any) ["__getitem__"]
  declareMethods c.tuple contains ["__contains__"]
  declareMethods c.tuple (.positional [] (iteratorOf .any)) ["__iter__"]
  declareMethods c.iterable (.positional [] (iteratorOf t)) ["__iter__"]
  declareMethods c.iterator (.positional [] (iteratorOf t)) ["__iter__"]
  declareMethods c.iterator (.positional [] t) ["__next__", "next"]
  declareMethods c.list (.positional [] .void) ["__init__"]
  declareMethods c.list (.positional [t] .void) ["append"]
  declareMethods c.list (.positional [] (iteratorOf t)) ["__iter__"]
  discard <| declareOverloadedMethod c.list "__getitem__"
    [.positional [int] t, .positional [slice] list]
  declareMethods c.list (.positional [int, t] .void) ["__setitem__"]
  declareMethods c.list (.positional [int] .void) ["__delitem__"]
  declareMethods c.list (.positional [list] list) ["__add__"]
  declareMethods c.list (.positional [int] list) ["__mul__"]
  declareMethods c.list contains ["__contains__"]
  declareMethods c.set (.positional [] .void) ["__init__"]
  declareMethods c.set (.positional [t] .void) ["add"]
  declareMethods c.set (.positional [] (iteratorOf t)) ["__iter__"]
  declareMethods c.set contains ["__contains__"]
  declareMethods c.dict (.positional [] .void) ["__init__"]
  declareMethods c.dict (.positional [k] v) ["__getitem__"]
  declareMethods c.dict (.positional [k, v] .void) ["__setitem__"]
  declareMethods c.dict (.positional [k] .void) ["__delitem__"]
  declareMethods c.dict (.positional [] (iteratorOf k)) ["__iter__"]
  declareMethods c.dict contains ["__contains__"]

/-- Declares everything in the module for what the language provides. -/
def install : Build Unit := do
  enterModule builtinsName
  let c ← declareClasses
  let b ← get
  let plain (c : ClassId) : Ty := b.instanceType c []
  let object := plain c.object
  let int := plain c.int
  let float := plain c.float
  let bytes := plain c.bytes
  let bool := plain c.bool
  let slice := plain c.slice
  declareNumbers c object int float bool
  declareText c.str (plain c.str) int slice bool
  declareText c.unicode (plain c.unicode) int slice bool
  declareMethods c.bytes (.positional [bytes] bytes) ["__add__"]
  declareMethods c.bytes (.positional [int] int) ["__getitem__"]
  declareContainers c object int slice bool
  declareMethods c.baseException (.ofFormals [object] [.star] [some "args"] .void) ["__init__"]
  discard <| declareFunction "isinstance" (.positional [object, .any] bool)
  discard <| declareFunction "len" (.positional [.any] int)
  discard <| declareFunction "range" (.positional [int] (b.instanceType c.list [int]))
  discard <| globalVar "None" (some .noneType)
  discard <| globalVar "True" (some bool)
  discard <| globalVar "False" (some bool)
  modify fun b => { b with builtins := some c }

end Gradual.Builtins

namespace Gradual

/-- A builder with everything that the language provides, about to fill the main module. -/
def Builder.new : Builder :=
  ((do Builtins.install; Builder.enterModule "__main__" : Build Unit).run Builder.bare).2

end Gradual

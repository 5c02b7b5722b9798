import SqlCompose.Object.Function.Language
import SqlCompose.Object.Function.Predicate
import SqlCompose.Object.Procedure
import SqlCompose.Render

/-!
# Methods of expressions

Tests, functions and renderings of one expression.
-/
namespace SqlCompose.Method

/-- An operator between an expression and a value. -/
def infixed (o : Object) (e : Expr) (symbol : String) : Procedure :=
  .exact ["other"] fun a =>
    Workspace.applied (Expr.binary symbol e.value (a.value "other")) [o, a.get "other"]

/-- A function of an expression alone. -/
def alone (o : Object) (e : Expr) : Procedure := .exact [] fun _ => Workspace.applied e [o]

/-- A LIKE test whose argument has a name. -/
def likeNamed (o : Object) (e : Expr) (name : String) (form : LikeForm) : Procedure :=
  .exact [name] fun a => Workspace.applied (e.like (a.value name) form) [o, a.get name]

/-- A LIKE test with a pattern and perhaps an escape character. -/
def likePattern (o : Object) (e : Expr) (negated : Bool) : Procedure :=
  .optional ["pattern"] ["escape"] fun a =>
    Function.like e o (a.get "pattern") (a.value "escape") negated

/-- The tests of an expression, by name. -/
def test? (o : Object) (e : Expr) (name : String) : Option Procedure :=
  match name with
  | "in_" => some (infixed o e "IN")
  | "not_in" => some (infixed o e "NOT IN")
  | "is_" => some (infixed o e "IS")
  | "is_not" => some (infixed o e "IS NOT")
  | "is_null" => some (alone o e.isNull)
  | "is_not_null" => some (alone o e.isNotNull)
  | "between" => some (.optional ["low"] ["high"] fun a =>
      Function.within e o (a.get "low") (a.get "high"))
  | "not_between" => some (.exact ["low", "high"] fun a =>
      Workspace.applied (e.within (a.value "low") (a.value "high") true)
        [o, a.get "low", a.get "high"])
  | "like" => some (likePattern o e false)
  | "not_like" => some (likePattern o e true)
  | "ilike" => some (likeNamed o e "pattern" { Expr.exactPattern with caseInsensitive := true })
  | "startswith" => some (likeNamed o e "prefix" { fuzzyStart := false })
  | "istartswith" =>
    some (likeNamed o e "prefix" { fuzzyStart := false, caseInsensitive := true })
  | "endswith" => some (likeNamed o e "suffix" { fuzzyEnd := false })
  | "iendswith" => some (likeNamed o e "suffix" { fuzzyEnd := false, caseInsensitive := true })
  | "contains" => some (likeNamed o e "substring" {})
  | "icontains" => some (likeNamed o e "substring" { caseInsensitive := true })
  | _ => none

/-- The functions of an expression, by name. -/
def function? (o : Object) (e : Expr) (name : String) : Option Procedure :=
  match name with
  | "as_" => some (.exact ["alias"] fun a => Workspace.named (a.get "alias") o e)
  | "concat" => some (.variadic [] fun a => Function.concat o a.more)
  | "lower" => some (alone o (Expr.call "LOWER" [e.value]))
  | "upper" => some (alone o (Expr.call "UPPER" [e.value]))
  | "trim" => some (alone o (Expr.call "TRIM" [e.value]))
  | "ltrim" => some (alone o (Expr.call "LTRIM" [e.value]))
  | "rtrim" => some (alone o (Expr.call "RTRIM" [e.value]))
  | _ => none

/-- The renderings of an expression, by name. Only columns and terms of an order can stand in an
index, and only columns are created. -/
def rendering? (o : Object) (e : Expr) (name : String) : Option Procedure :=
  match name, e with
  | "build", _ => some (rendering o fun cat engine => e.built cat engine)
  | "build_reference", _ => some (rendering o fun cat engine => e.reference cat engine)
  | "build_selected", _ => some (rendering o fun cat engine => e.selected cat engine)
  | "build_index", .column .. | "build_index", .order .. =>
    some (rendering o fun cat engine => e.indexTerm cat engine)
  | "create", .column _ id =>
    some (rendering o fun cat engine => (cat.column id).definition cat engine)
  | _, _ => none

/-- The methods of an expression, by name. -/
def ofExpr? (o : Object) (e : Expr) (name : String) : Option Procedure :=
  (test? o e name).or ((function? o e name).or (rendering? o e name))

end SqlCompose.Method

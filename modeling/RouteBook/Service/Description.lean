import RouteBook.Routes.Collect

/-! The service's own OpenAPI document: the user listing and the login stub. -/

namespace RouteBook.Service

open Json (Value)

def version : String := "0.1.0"

namespace Description

def text (s : String) : Value := .str s

/-- An operation with one answer, whose body has the given media type, schema and example. -/
def operation (tag summary description id answer mediaType : String) (schema sample : Value) : Value :=
  .obj [
    ("tags", .arr [text tag]),
    ("summary", text summary),
    ("description", text description),
    ("operationId", text id),
    ("responses", .obj [("200", .obj [
      ("description", text answer),
      ("content", .obj [(mediaType, .obj [("schema", schema), ("example", sample)])])])])]

def loginOperation : Value :=
  operation "auth" "ログイン要求を受け付ける" "リクエストボディは読まずに、常に固定文字列 `ok` を返す。" "login" "受付済み" "text/plain"
    (.obj [("type", text "string")]) (text "ok")

def usersOperation : Value :=
  operation "user" "ユーザー一覧を返す" "リクエストの内容に関わらず、常に空のユーザー一覧を返す。" "get_users" "ユーザー一覧（常に空）"
    "application/json" (.obj [("$ref", text "#/components/schemas/UsersResponse")]) (.obj [("users", .arr [])])

def usersSchema : Value :=
  .obj [
    ("type", text "object"),
    ("description", text "`GET /user` のレスポンスボディ\n\n要素の型は定めていない。`users` は常に空配列になる。"),
    ("required", .arr [text "users"]),
    ("properties", .obj [("users", .obj [
      ("type", text "array"),
      ("items", .obj [("type", text "object")])])])]

end Description

open Description in
/-- The document that describes the service. -/
def document : OpenApi.Document where
  tree := .obj [
    ("openapi", text "3.1.0"),
    ("info", .obj [
      ("title", text "SampleAPI"),
      ("description", text "空のユーザー一覧とログイン受付のスタブを提供する API"),
      ("license", .obj [("name", text "MIT"), ("identifier", text "MIT")]),
      ("version", text version)]),
    ("paths", .obj [
      (Routes.loginPath, .obj [("post", loginOperation)]),
      (Routes.userPath, .obj [("get", usersOperation)])]),
    ("components", .obj [("schemas", .obj [("UsersResponse", usersSchema)])]),
    ("tags", .arr [
      .obj [("name", text "user"), ("description", text "ユーザー")],
      .obj [("name", text "auth"), ("description", text "ログイン（認証処理なし）")]])]

end RouteBook.Service

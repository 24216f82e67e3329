/-!
# Requests and the numbers that name them

`ConstHTTP.swift`, and a request as `HttpUrlTaskManager` is told to send it.
-/

namespace KBucket

namespace ConstHTTP

def HTTP_OK : Int := 0
def HTTP_FAIL : Int := -1

def INSERT_BUCKET : Int := 2000
def INSERT_IMAGE : Int := 2001
def UPDATE_VERSION : Int := 2002
def CATEGORY_LIST : Int := 2003
def BUCKET_LIST : Int := 2004
def COMMENT_LIST : Int := 2005
def INSERT_COMMENT : Int := 2006
def NOTICE_LIST : Int := 2007
def REQUEST_AI : Int := 2010
def RANK_LIST : Int := 2011
def RANK_UPDATE_COMMENT : Int := 2012
def UPLOAD_DB : Int := 2013

end ConstHTTP

/-- `HttpUrlTaskManager(url:post:receive:id:)` and the argument of its `actionTaskWithData`. -/
structure HttpRequest where
  url : String
  post : Bool
  id : Int
  data : String
  deriving DecidableEq, Repr

end KBucket

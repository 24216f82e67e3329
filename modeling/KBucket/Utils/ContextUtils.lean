/-!
# `ContextUtils.swift`

The constants that the screens read: storyboard identifiers, keys of `UserDefaults`, the words
that a widget and the screens exchange, and the addresses of the server.
-/

namespace KBucket
namespace ContextUtils

def VERSION_NAME : String := "2.0.03"

def KEY_CONF_PASSWORD : String := "KEY_CONF_PASSWORD"
def KEY_USER_NICKNAME : String := "KEY_USER_NICKNAME"
def KEY_USER_FCM : String := "KEY_USER_FCM"

def VIEW_WRITE : String := "WriteActivity"
def VIEW_COMPLETE_LIST : String := "BucketListView"

def DEFULAT_SHARE_BUCKET_IDX : String := "1"

def WIDGET_WRITE_BUCKET : String := "WRITE"
def WIDGET_BUCKET_LIST : String := "LIST"
def WIDGET_SHARE : String := "SHARE"
def WIDGET_OURS_BUCKET : String := "OURS_BUCKET"

def SORT_DATE : String := "SORT_DATE"
def SORT_MEMO : String := "SORT_MEMO"
def SORT_DEADLINE : String := "SORT_DEADLINE"
def BACK_MEMO : String := "BACK_MEMO"

def MAIN_VIEW : String := "ViewController"
def SHARE_VIEW : String := "ShareListView"
def WRITE_VIEW : String := "WriteView"
def BUCKET_LIST_VIEW : String := "BucketListView"
def SET_NICKNAME_VIEW : String := "SetNickNameView"

def KBUCKET_SORT_KEY : String := "KBUCKET_SORT"

def KBUCKET_SERVER_IP : String := "http://kikiplus.cafe24.com"
def KBUCKET_VERSION_UPDATE_URL : String := KBUCKET_SERVER_IP ++ "/mobile/version.jsp"
def KBUCKET_INSERT_BUCKET_URL : String := KBUCKET_SERVER_IP ++ "/mobile/insertBucket.jsp"
def KBUCKET_UPLOAD_IMAGE_URL : String := KBUCKET_SERVER_IP ++ "/mobile/uploadFile.jsp"
def KBUCKET_BUCKET_LIST_URL : String := KBUCKET_SERVER_IP ++ "/mobile/bucketList.jsp"
def KBUCKET_COMMENT_URL : String := KBUCKET_SERVER_IP ++ "/mobile/comment.jsp"
def KBUCKET_NOTICE_URL : String := KBUCKET_SERVER_IP ++ "/mobile/update.jsp"
def KBUCKET_UPDATE_USER : String := KBUCKET_SERVER_IP ++ "/mobile/insertMobileUser.jsp"
def INSERT_COMMENT_URL : String := KBUCKET_SERVER_IP ++ "/mobile/insertComment.jsp"
def KBUCKET_DOWNLOAD_IAMGE : String := KBUCKET_SERVER_IP ++ "/mobile/downloadFile.jsp"
def KBUCKET_AI : String := KBUCKET_SERVER_IP ++ "/mobile/getAIReplay.jsp"
def KBUCKET_RANK_LIST_URL : String := KBUCKET_SERVER_IP ++ "/mobile/bucketRankList.jsp"
def KBUCKET_RANK_COMMENT : String := KBUCKET_SERVER_IP ++ "/mobile/bucketRankComment.jsp"
def KBUCKET_BLOG : String := "http://blog.naver.com/kikiplus2030"

end ContextUtils
end KBucket
